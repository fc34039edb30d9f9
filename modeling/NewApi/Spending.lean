import Mathlib.Algebra.Order.BigOperators.Group.List
import Mathlib.Order.Lattice
import NewApi.Code.Reserve
import NewApi.Code.Session
import NewApi.Lib.Run

/-!
# Spending from one wallet

The row is behind while deltas wait, and the cache is ahead between a purchase and its decrement.
-/

namespace NewApi.Spending

open Code Code.Reserve Run

/-! ## The system -/

structure State where
  wallet : Wallet
  calls : List Call
deriving DecidableEq

inductive Event where
  | reserve (quota : Int)
  | read
  | buy (requiredQuota : Int)
  | advance (call : Nat) (reply : Reply)
  | swap
  | flush (run : Nat)
  | expire
deriving DecidableEq

variable (settings : ReserveSettings)

def step (s : State) : Event → Option State
  | .reserve quota => some { s with calls := s.calls ++ [Reserve.tryReserveUserQuota settings quota] }
  | .read => some { s with calls := s.calls ++ [.cacheGetUserBase none] }
  | .buy requiredQuota => some { s with calls := s.calls ++ [.buy requiredQuota] }
  | .advance i reply =>
    match s.calls[i]? with
    | none => none
    | some call =>
      let (wallet, next) := call.advance settings s.wallet reply
      some { wallet, calls := s.calls.set i next }
  | .swap => some { s with wallet := { s.wallet with queue := 0, inFlight := s.wallet.inFlight ++ [s.wallet.queue] } }
  | .flush i =>
    match s.wallet.inFlight[i]? with
    | none => none
    | some sum => some { s with wallet :=
        { s.wallet with db := s.wallet.db + sum, inFlight := s.wallet.inFlight.eraseIdx i } }
  | .expire => some { s with wallet := { s.wallet with cache := none } }

def taken : Call → Int
  | .reserved quota => quota
  | .decrCache chargedQuota => chargedQuota
  | .bought chargedQuota => chargedQuota
  | _ => 0

/-- Taken from the cache, and neither in the queue nor in the row yet. -/
def granted : Call → Int
  | .persist quota => quota
  | _ => 0

/-- Taken from the row, and not from the cache yet. -/
def owed : Call → Int
  | .decrCache chargedQuota => chargedQuota
  | _ => 0

/-- Taken from the cache for a reservation that has failed. -/
def returning : Call → Int
  | .compensate quota => quota
  | _ => 0

def State.total (s : State) (f : Call → Int) : Int := (s.calls.map f).sum

def spent (s : State) : Int := s.total taken

def Settled (s : State) : Prop :=
  s.wallet.queue = 0 ∧ s.wallet.inFlight = [] ∧ ∀ call ∈ s.calls, granted call = 0 ∧ returning call = 0

instance (s : State) : Decidable (Settled s) := inferInstanceAs (Decidable (_ ∧ _))

def NothingOwed (s : State) : Prop := ∀ call ∈ s.calls, owed call = 0

instance (s : State) : Decidable (NothingOwed s) := inferInstanceAs (Decidable (∀ _ ∈ _, _))

/-- The balance that this access relies on is not above what is left. -/
def Sighted (s : State) : Call → Prop
  | .reserve quota | .retry quota => ∀ balance ∈ s.wallet.cache, quota ≤ balance → NothingOwed s
  | .populate snapshot _ => s.wallet.cache = none → Settled s ∧ snapshot ≤ s.wallet.db
  | .reserveDB quota => quota ≤ s.wallet.db → Settled s ∧ s.wallet.cache = none
  | .buy requiredQuota => 0 < requiredQuota ∧ requiredQuota ≤ s.wallet.db → Settled s
  | _ => True

instance (s : State) (call : Call) : Decidable (Sighted s call) := by
  cases call <;> unfold Sighted <;> infer_instance

/-- A decrement of the cache is not lost while a balance is cached. -/
def Kept (s : State) (reply : Reply) : Call → Prop
  | .decrCache _ => settings.redisEnabled ∧ reply = .done ∨ s.wallet.cache = none
  | _ => True

instance (s : State) (reply : Reply) (call : Call) : Decidable (Kept settings s reply call) := by
  cases call <;> unfold Kept <;> infer_instance

def Careful (s : State) : Event → Prop
  | .advance i reply => ∀ call ∈ s.calls[i]?, (reply = .done → Sighted s call) ∧ Kept settings s reply call
  | _ => True

instance (s : State) (e : Event) : Decidable (Careful settings s e) := by
  cases e <;> unfold Careful <;> infer_instance

/-! ## What is left -/

def amount : Call → Int
  | .reserve quota | .retry quota | .persist quota | .compensate quota | .reserveDB quota | .reserved quota => quota
  | .cacheGetUserBase waiting | .getUserById waiting | .populate _ waiting => waiting.getD 0
  | .decrCache chargedQuota | .bought chargedQuota => chargedQuota
  | .buy _ | .finished => 0

def stored (w : Wallet) : Int := w.db + w.queue + w.inFlight.sum

structure Inv (start : Int) (s : State) : Prop where
  amounts : ∀ call ∈ s.calls, 0 ≤ amount call
  queue : s.wallet.queue ≤ 0
  inFlight : ∀ sum ∈ s.wallet.inFlight, sum ≤ 0
  queued : 0 ≤ spent s + s.wallet.queue + s.wallet.inFlight.sum
  balance : stored s.wallet + spent s = start
  bound : spent s + s.total granted ≤ max start 0
  cached : ∀ balance ∈ s.wallet.cache, balance + s.total returning ≤ start - spent s - s.total granted + s.total owed

def Cold (call : Call) : Prop := taken call = 0 ∧ granted call = 0 ∧ owed call = 0 ∧ returning call = 0

section Steps

variable {settings : ReserveSettings} {start : Int} {s t : State} {call next : Call} {w : Wallet} {i : Nat}

theorem amount_hydrated (waiting : Option Int) : amount (hydrated waiting) = waiting.getD 0 := by
  cases waiting <;> rfl

theorem amount_hydrateFailed (waiting : Option Int) : amount (hydrateFailed waiting) = waiting.getD 0 := by
  cases waiting <;> rfl

theorem nonneg_of_amounts {f : Call → Int} (hf : ∀ call, f call = 0 ∨ f call = amount call)
    (h : ∀ call ∈ s.calls, 0 ≤ amount call) : ∀ x ∈ s.calls.map f, 0 ≤ x := by
  intro x hx
  obtain ⟨call, hmem, rfl⟩ := List.mem_map.mp hx
  rcases hf call with h0 | h0 <;> rw [h0]
  exact h call hmem

theorem granted_amount (call : Call) : granted call = 0 ∨ granted call = amount call := by
  cases call <;> simp [granted, amount]

theorem owed_amount (call : Call) : owed call = 0 ∨ owed call = amount call := by
  cases call <;> simp [owed, amount]

theorem returning_amount (call : Call) : returning call = 0 ∨ returning call = amount call := by
  cases call <;> simp [returning, amount]

theorem total_eq_zero {f : Call → Int} (h : ∀ call ∈ s.calls, f call = 0) : s.total f = 0 :=
  List.sum_eq_zero fun x hx => by
    obtain ⟨call, hmem, rfl⟩ := List.mem_map.mp hx
    exact h call hmem

theorem total_set (f : Call → Int) (hcall : s.calls[i]? = some call) :
    State.total ⟨w, s.calls.set i next⟩ f = s.total f - f call + f next := by
  have h := sum_set f hcall next
  simp only [State.total]
  omega

theorem Inv.start_call (h : Inv start s) (hamount : 0 ≤ amount call) (hcold : Cold call) :
    Inv start { s with calls := s.calls ++ [call] } := by
  have htotal : ∀ f : Call → Int, f call = 0 → State.total { s with calls := s.calls ++ [call] } f = s.total f := by
    intro f hf
    simp [State.total, hf]
  obtain ⟨h1, h2, h3, h4⟩ := hcold
  have e1 := htotal _ h1
  have e2 := htotal _ h2
  have e3 := htotal _ h3
  have e4 := htotal _ h4
  refine ⟨?_, h.queue, h.inFlight, ?_, ?_, ?_, ?_⟩
  · intro c hc
    rcases List.mem_append.mp hc with hc | hc
    · exact h.amounts c hc
    · rw [List.mem_singleton.mp hc]
      exact hamount
  · unfold spent
    rw [e1]
    exact h.queued
  · unfold spent
    rw [e1]
    exact h.balance
  · unfold spent
    rw [e1, e2]
    exact h.bound
  · unfold spent
    rw [e1, e2, e3, e4]
    exact h.cached

theorem Inv.replace (h : Inv start s) (hcall : s.calls[i]? = some call) (hamount : 0 ≤ amount next)
    (hqueue : w.queue ≤ 0) (hinFlight : w.inFlight = s.wallet.inFlight)
    (hrow : s.wallet.queue + taken call ≤ w.queue + taken next ∧
      stored w + taken next = stored s.wallet + taken call ∧
      spent s + s.total granted + (taken next + granted next) - (taken call + granted call) ≤ max start 0)
    (hcached : ∀ balance ∈ w.cache, balance + (s.total returning - returning call + returning next) ≤
      start - (spent s - taken call + taken next) - (s.total granted - granted call + granted next) +
        (s.total owed - owed call + owed next)) :
    Inv start ⟨w, s.calls.set i next⟩ := by
  have hspent : spent ⟨w, s.calls.set i next⟩ = spent s - taken call + taken next := total_set taken hcall
  refine ⟨?_, hqueue, ?_, ?_, ?_, ?_, ?_⟩
  · intro c hc
    rcases List.mem_or_eq_of_mem_set hc with hc | rfl
    · exact h.amounts c hc
    · exact hamount
  · simp only
    rw [hinFlight]
    exact h.inFlight
  · have := h.queued
    simp only
    rw [hspent, hinFlight]
    omega
  · have := h.balance
    simp only
    rw [hspent]
    omega
  · rw [hspent, total_set granted hcall]
    omega
  · intro balance hb
    rw [hspent, total_set granted hcall, total_set owed hcall, total_set returning hcall]
    exact hcached balance hb

theorem Settled.totals (h : Settled s) : s.total granted = 0 ∧ s.total returning = 0 :=
  ⟨total_eq_zero fun call hc => (h.2.2 call hc).1, total_eq_zero fun call hc => (h.2.2 call hc).2⟩

theorem cold_hydrated (waiting : Option Int) : Cold (hydrated waiting) := by
  cases waiting <;> exact ⟨rfl, rfl, rfl, rfl⟩

theorem cold_hydrateFailed (waiting : Option Int) : Cold (hydrateFailed waiting) := by
  cases waiting <;> exact ⟨rfl, rfl, rfl, rfl⟩

section

variable (h : Inv start s)
include h

theorem Inv.row_eq (hsettled : Settled s) : s.wallet.db + spent s = start := by
  have hb := h.balance
  unfold stored at hb
  rw [hsettled.1, hsettled.2.1, List.sum_nil] at hb
  omega

theorem Inv.owed_nonneg : 0 ≤ s.total owed :=
  List.sum_nonneg (nonneg_of_amounts owed_amount h.amounts)

theorem Inv.returning_nonneg : 0 ≤ s.total returning :=
  List.sum_nonneg (nonneg_of_amounts returning_amount h.amounts)

section

variable (hcall : s.calls[i]? = some call)
include hcall

theorem Inv.granted_le : granted call ≤ s.total granted :=
  List.single_le_sum (nonneg_of_amounts granted_amount h.amounts) _
    (List.mem_map_of_mem (List.mem_of_getElem? hcall))

theorem Inv.amount_nonneg : 0 ≤ amount call :=
  h.amounts call (List.mem_of_getElem? hcall)

theorem Inv.idle (hcold : Cold call) (hnext : Cold next) (hamount : 0 ≤ amount next)
    : Inv start ⟨s.wallet, s.calls.set i next⟩ := by
  obtain ⟨_, _, _, _⟩ := hcold
  obtain ⟨_, _, _, _⟩ := hnext
  have hbound := h.bound
  refine h.replace hcall hamount h.queue rfl (by omega) ?_
  intro balance hb
  have := h.cached balance hb
  omega

theorem script_inv (reply : Reply) {quota : Int} {miss : Call}
    (hres : cacheTryReserveUserQuota s.wallet reply quota miss = (w, next)) (hcold : Cold call) (hmiss : Cold miss)
    (hquota : amount call = quota) (hsame : amount miss = quota)
    (hok : reply = .done → ∀ balance ∈ s.wallet.cache, quota ≤ balance → NothingOwed s) :
    Inv start ⟨w, s.calls.set i next⟩ := by
  have hpos := h.amount_nonneg hcall
  unfold cacheTryReserveUserQuota userQuotaReserveScript at hres
  split at hres
  · rename_i hdone
    cases hcache : s.wallet.cache with
    | none =>
      simp only [hcache, Prod.mk.injEq] at hres
      obtain ⟨rfl, rfl⟩ := hres
      exact h.idle hcall hcold hmiss (by omega)
    | some balance =>
      by_cases hlt : balance < quota
      · simp only [hcache, if_pos hlt, Prod.mk.injEq] at hres
        obtain ⟨rfl, rfl⟩ := hres
        exact h.idle hcall hcold ⟨rfl, rfl, rfl, rfl⟩ le_rfl
      simp only [hcache, if_neg hlt, Prod.mk.injEq] at hres
      obtain ⟨rfl, rfl⟩ := hres
      obtain ⟨c1, c2, c3, c4⟩ := hcold
      have howed := total_eq_zero (hok hdone balance hcache (by omega))
      have hcached := h.cached balance hcache
      have hreturning := h.returning_nonneg
      refine h.replace hcall (hquota ▸ hpos) h.queue rfl ?_ ?_
      · rw [c1, c2]
        simp only [taken, granted, stored, true_and]
        omega
      rintro _ ⟨⟩
      rw [c1, c2, c3, c4]
      simp only [taken, granted, owed, returning]
      omega
  · obtain ⟨rfl, rfl⟩ := Prod.mk.inj hres
    exact h.idle hcall hcold ⟨rfl, rfl, rfl, rfl⟩ (hquota ▸ hpos)

end

theorem persist_inv (hstart : start ≤ maxInt) (reply : Reply) {quota : Int}
    (hcall : s.calls[i]? = some (.persist quota))
    (hres : persistUserQuotaDelta settings s.wallet reply quota = (w, next)) : Inv start ⟨w, s.calls.set i next⟩ := by
  have hpos : 0 ≤ quota := h.amount_nonneg hcall
  have hgranted : quota ≤ s.total granted := h.granted_le hcall
  have hbound := h.bound
  have hqueue := h.queue
  unfold persistUserQuotaDelta at hres
  split at hres
  · -- The queue holds at most what has been spent, so the sum is not cut off.
    obtain ⟨rfl, rfl⟩ := Prod.mk.inj hres
    have hqueued := h.queued
    have hsum : s.wallet.inFlight.sum ≤ 0 := by
      simpa using List.sum_le_card_nsmul _ 0 h.inFlight
    have hadd : saturatingAdd s.wallet.queue (-quota) = s.wallet.queue - quota := by
      unfold maxInt at hstart
      rw [saturatingAdd_eq] <;> omega
    rw [hadd]
    refine h.replace hcall hpos ?_ rfl ?_ ?_
    · simp only
      omega
    · simp only [taken, granted, stored]
      omega
    intro balance hb
    have := h.cached balance hb
    simp only [taken, granted, owed, returning]
    omega
  · split at hres
    · obtain ⟨rfl, rfl⟩ := Prod.mk.inj hres
      refine h.replace hcall hpos hqueue rfl ?_ ?_
      · simp only [taken, granted, stored]
        omega
      intro balance hb
      have := h.cached balance hb
      simp only [taken, granted, owed, returning]
      omega
    · obtain ⟨rfl, rfl⟩ := Prod.mk.inj hres
      refine h.replace hcall hpos hqueue rfl ?_ ?_
      · simp only [taken, granted, stored, true_and]
        omega
      intro balance hb
      have := h.cached balance hb
      simp only [taken, granted, owed, returning]
      omega

theorem populate_inv {snapshot : Int} {waiting : Option Int} (hcall : s.calls[i]? = some (.populate snapshot waiting))
    (hok : Sighted s (.populate snapshot waiting)) :
    Inv start ⟨{ s.wallet with cache := populateUserCache settings s.wallet.cache snapshot },
      s.calls.set i (hydrated waiting)⟩ := by
  have hbound := h.bound
  have hcold := cold_hydrated waiting
  obtain ⟨n1, n2, n3, n4⟩ := hcold
  refine h.replace hcall ?_ h.queue rfl ?_ ?_
  · rw [amount_hydrated]
    exact h.amount_nonneg hcall
  · rw [n1, n2]
    simp only [taken, granted, stored, true_and]
    omega
  intro balance hb
  rw [n1, n2, n3, n4]
  simp only [taken, granted, owed, returning]
  have hkept : balance ∈ s.wallet.cache → balance + s.total returning ≤
      start - spent s - s.total granted + s.total owed := h.cached balance
  unfold populateUserCache at hb
  split at hb
  · cases hcache : s.wallet.cache with
    | none =>
      obtain ⟨hsettled, hsnapshot⟩ := hok hcache
      have hrow := h.row_eq hsettled
      obtain ⟨hg, hr⟩ := hsettled.totals
      have howed := h.owed_nonneg
      simp only [hcache, Option.getD_none, Option.mem_some_iff] at hb
      omega
    | some =>
      simp only [hcache, Option.getD_some, Option.mem_some_iff] at hb hkept
      omega
  · have := hkept hb
    omega

theorem reserveDB_inv {quota : Int} (hcall : s.calls[i]? = some (.reserveDB quota)) (hok : Sighted s (.reserveDB quota))
    (hle : quota ≤ s.wallet.db) :
    Inv start ⟨{ s.wallet with db := s.wallet.db - quota }, s.calls.set i (.reserved quota)⟩ := by
  obtain ⟨hsettled, hcache⟩ := hok hle
  have hpos : 0 ≤ quota := h.amount_nonneg hcall
  have hrow := h.row_eq hsettled
  obtain ⟨hg, hr⟩ := hsettled.totals
  refine h.replace hcall hpos h.queue rfl ?_ ?_
  · simp only [taken, granted, stored]
    omega
  · intro balance hb
    rw [hcache] at hb
    cases hb

theorem buy_inv {requiredQuota : Int} (hcall : s.calls[i]? = some (.buy requiredQuota))
    (hok : Sighted s (.buy requiredQuota)) (hpos : 0 < requiredQuota) (hle : requiredQuota ≤ s.wallet.db) :
    Inv start ⟨{ s.wallet with db := s.wallet.db - requiredQuota }, s.calls.set i (.decrCache requiredQuota)⟩ := by
  have hsettled := hok ⟨hpos, hle⟩
  have hrow := h.row_eq hsettled
  obtain ⟨hg, hr⟩ := hsettled.totals
  refine h.replace hcall hpos.le h.queue rfl ?_ ?_
  · simp only [taken, granted, stored]
    omega
  intro balance hb
  have := h.cached balance hb
  simp only [taken, granted, owed, returning]
  omega

theorem decrCache_inv (reply : Reply) {chargedQuota : Int} (hcall : s.calls[i]? = some (.decrCache chargedQuota))
    (hkept : Kept settings s reply (.decrCache chargedQuota))
    (hres : (Call.decrCache chargedQuota).advance settings s.wallet reply = (w, next)) :
    Inv start ⟨w, s.calls.set i next⟩ := by
  have hbound := h.bound
  have hpos : 0 ≤ chargedQuota := h.amount_nonneg hcall
  have hafter : ∀ balance ∈ w.cache, balance + chargedQuota ∈ s.wallet.cache := by
    intro balance hb
    rcases hkept with ⟨hredis, hdone⟩ | hnone
    · rw [Call.advance, if_pos hdone, cacheDecrUserQuota, if_pos hredis] at hres
      obtain ⟨rfl, rfl⟩ := Prod.mk.inj hres
      cases hcache : s.wallet.cache with
      | none => simp [userQuotaDeltaScript, hcache] at hb
      | some =>
        simp only [userQuotaDeltaScript, hcache, Option.mem_some_iff] at hb ⊢
        omega
    · simp only [Call.advance, cacheDecrUserQuota, userQuotaDeltaScript, hnone, ite_self] at hres
      split at hres <;> obtain ⟨rfl, rfl⟩ := Prod.mk.inj hres
      · cases hb
      · simp [hnone] at hb
  have hnext : next = .bought chargedQuota ∧ w = { s.wallet with cache := w.cache } := by
    simp only [Call.advance] at hres
    split at hres <;> obtain ⟨rfl, rfl⟩ := Prod.mk.inj hres <;> exact ⟨rfl, rfl⟩
  obtain ⟨rfl, hw⟩ := hnext
  rw [hw]
  refine h.replace hcall hpos h.queue rfl (by simp only [taken, granted, stored, true_and]; omega) ?_
  intro balance hb
  have := h.cached _ (hafter balance hb)
  simp only [taken, granted, owed, returning]
  omega

end

theorem set_self {α : Type*} {xs : List α} {i : Nat} {x : α} (h : xs[i]? = some x) : xs.set i x = xs := by
  obtain ⟨hi, rfl⟩ := List.getElem?_eq_some_iff.mp h
  exact List.set_getElem_self hi

theorem compensate_inv {quota : Int} (h : Inv start s) (reply : Reply) (hcall : s.calls[i]? = some (.compensate quota))
    (hres : (Call.compensate quota).advance settings s.wallet reply = (w, next)) : Inv start ⟨w, s.calls.set i next⟩ := by
  have hquota : 0 ≤ quota := h.amount_nonneg hcall
  have hbound := h.bound
  simp only [Call.advance] at hres
  split at hres <;> obtain ⟨rfl, rfl⟩ := Prod.mk.inj hres
  all_goals refine h.replace hcall le_rfl h.queue rfl (by simp only [taken, granted, stored, true_and]; omega) ?_
  · intro balance hb
    cases hcache : s.wallet.cache with
    | none => simp [userQuotaDeltaScript, hcache] at hb
    | some old =>
      have := h.cached old hcache
      simp only [userQuotaDeltaScript, hcache, Option.mem_some_iff] at hb
      simp only [taken, granted, owed, returning]
      omega
  · intro balance hb
    have := h.cached balance hb
    simp only [taken, granted, owed, returning]
    omega

theorem advance_inv (h : Inv start s) (hstart : start ≤ maxInt) (reply : Reply) (hcall : s.calls[i]? = some call)
    (hok : reply = .done → Sighted s call) (hkept : Kept settings s reply call)
    (hres : call.advance settings s.wallet reply = (w, next)) : Inv start ⟨w, s.calls.set i next⟩ := by
  have hamount := h.amount_nonneg hcall
  cases call with
  | reserve | retry =>
    rw [Call.advance] at hres
    exact script_inv h hcall reply hres ⟨rfl, rfl, rfl, rfl⟩ ⟨rfl, rfl, rfl, rfl⟩ rfl rfl hok
  | persist => exact persist_inv h hstart reply hcall hres
  | cacheGetUserBase waiting =>
    simp only [Call.advance] at hres
    split at hres <;> obtain ⟨rfl, rfl⟩ := Prod.mk.inj hres
    · exact h.idle hcall ⟨rfl, rfl, rfl, rfl⟩ (cold_hydrated waiting) (amount_hydrated waiting ▸ hamount)
    · exact h.idle hcall ⟨rfl, rfl, rfl, rfl⟩ ⟨rfl, rfl, rfl, rfl⟩ hamount
  | getUserById waiting =>
    simp only [Call.advance] at hres
    split at hres <;> obtain ⟨rfl, rfl⟩ := Prod.mk.inj hres
    · exact h.idle hcall ⟨rfl, rfl, rfl, rfl⟩ ⟨rfl, rfl, rfl, rfl⟩ hamount
    · exact h.idle hcall ⟨rfl, rfl, rfl, rfl⟩ (cold_hydrateFailed waiting) (amount_hydrateFailed waiting ▸ hamount)
  | populate snapshot waiting =>
    cases reply <;> obtain ⟨rfl, rfl⟩ := Prod.mk.inj hres
    · exact populate_inv h hcall (hok rfl)
    · exact h.idle hcall ⟨rfl, rfl, rfl, rfl⟩ (cold_hydrated waiting) (amount_hydrated waiting ▸ hamount)
    · exact h.idle hcall ⟨rfl, rfl, rfl, rfl⟩ (cold_hydrateFailed waiting) (amount_hydrateFailed waiting ▸ hamount)
  | compensate => exact compensate_inv h reply hcall hres
  | reserveDB quota =>
    simp only [Call.advance, reserveUserQuotaDB] at hres
    split at hres
    · rename_i hdone
      by_cases hle : quota ≤ s.wallet.db
      · simp only [if_pos hle, Prod.mk.injEq] at hres
        obtain ⟨rfl, rfl⟩ := hres
        exact reserveDB_inv h hcall (hok hdone) hle
      · simp only [if_neg hle, Prod.mk.injEq] at hres
        obtain ⟨rfl, rfl⟩ := hres
        exact h.idle hcall ⟨rfl, rfl, rfl, rfl⟩ ⟨rfl, rfl, rfl, rfl⟩ le_rfl
    · obtain ⟨rfl, rfl⟩ := Prod.mk.inj hres
      exact h.idle hcall ⟨rfl, rfl, rfl, rfl⟩ ⟨rfl, rfl, rfl, rfl⟩ le_rfl
  | buy requiredQuota =>
    simp only [Call.advance, purchase] at hres
    split at hres
    · rename_i hdone
      by_cases hpos : 0 < requiredQuota
      · by_cases hlt : s.wallet.db < requiredQuota
        · simp only [if_pos (And.intro hpos hlt), Prod.mk.injEq] at hres
          obtain ⟨rfl, rfl⟩ := hres
          exact h.idle hcall ⟨rfl, rfl, rfl, rfl⟩ ⟨rfl, rfl, rfl, rfl⟩ le_rfl
        · simp only [hlt, and_false, if_false, if_pos hpos, Prod.mk.injEq] at hres
          obtain ⟨rfl, rfl⟩ := hres
          exact buy_inv h hcall (hok hdone) hpos (by omega)
      · simp only [hpos, false_and, if_false, lt_irrefl, Prod.mk.injEq] at hres
        obtain ⟨rfl, rfl⟩ := hres
        exact h.idle hcall ⟨rfl, rfl, rfl, rfl⟩ ⟨rfl, rfl, rfl, rfl⟩ le_rfl
    · obtain ⟨rfl, rfl⟩ := Prod.mk.inj hres
      exact h.idle hcall ⟨rfl, rfl, rfl, rfl⟩ ⟨rfl, rfl, rfl, rfl⟩ le_rfl
  | decrCache => exact decrCache_inv h reply hcall hkept hres
  | reserved | bought | finished =>
    obtain ⟨rfl, rfl⟩ := Prod.mk.inj hres
    rw [set_self hcall]
    exact h

theorem tryReserveUserQuota_cold (settings : ReserveSettings) (quota : Int) :
    Cold (Reserve.tryReserveUserQuota settings quota) ∧ 0 ≤ amount (Reserve.tryReserveUserQuota settings quota) := by
  unfold Reserve.tryReserveUserQuota
  split
  · exact ⟨⟨rfl, rfl, rfl, rfl⟩, le_rfl⟩
  split
  · exact ⟨⟨rfl, rfl, rfl, rfl⟩, le_rfl⟩
  split
  all_goals
    refine ⟨⟨rfl, rfl, rfl, rfl⟩, ?_⟩
    simp only [amount]
    omega

theorem step_inv (hstart : start ≤ maxInt) (e : Event) (hok : Careful settings s e) (h : Inv start s)
    (hstep : step settings s e = some t) : Inv start t := by
  cases e with
  | reserve quota =>
    cases hstep
    obtain ⟨hcold, hamount⟩ := tryReserveUserQuota_cold settings quota
    exact h.start_call hamount hcold
  | read | buy =>
    cases hstep
    exact h.start_call le_rfl ⟨rfl, rfl, rfl, rfl⟩
  | advance i reply =>
    simp only [step] at hstep
    split at hstep
    · cases hstep
    rename_i call hcall
    cases hstep
    obtain ⟨hsighted, hkept⟩ := hok call hcall
    exact advance_inv h hstart reply hcall hsighted hkept rfl
  | swap =>
    cases hstep
    have hqueued := h.queued
    have hbalance := h.balance
    refine ⟨h.amounts, le_rfl, ?_, ?_, ?_, h.bound, h.cached⟩
    · intro sum hsum
      rcases List.mem_append.mp hsum with hsum | hsum
      · exact h.inFlight sum hsum
      · rw [List.mem_singleton.mp hsum]
        exact h.queue
    · simp only [spent, State.total, List.sum_append, List.sum_singleton] at hqueued ⊢
      omega
    · simp only [spent, State.total, stored, List.sum_append, List.sum_singleton] at hbalance ⊢
      omega
  | flush =>
    simp only [step] at hstep
    split at hstep
    · cases hstep
    rename_i sum hsum
    cases hstep
    have hqueued := h.queued
    have hbalance := h.balance
    have hnonpos := h.inFlight sum (List.mem_of_getElem? hsum)
    have hrest := sum_eraseIdx id hsum
    rw [List.map_id, List.map_id, id_eq] at hrest
    refine ⟨h.amounts, h.queue, fun x hx => h.inFlight x (List.mem_of_mem_eraseIdx hx), ?_, ?_, h.bound, h.cached⟩
    · simp only [spent, State.total] at hqueued ⊢
      omega
    · simp only [spent, State.total, stored] at hbalance ⊢
      omega
  | expire =>
    cases hstep
    exact ⟨h.amounts, h.queue, h.inFlight, h.queued, h.balance, h.bound, fun _ hb => by cases hb⟩

end Steps

/-! ## Runs -/

def Initial (start : Int) (s : State) : Prop :=
  s.wallet.db = start ∧ s.wallet.queue = 0 ∧ s.wallet.inFlight = [] ∧ s.calls = [] ∧
    ∀ balance ∈ s.wallet.cache, balance ≤ start

theorem initial_inv {start : Int} {s : State} (h : Initial start s) : Inv start s := by
  obtain ⟨⟨_, _, _, _⟩, _⟩ := s
  obtain ⟨rfl, rfl, rfl, rfl, hcached⟩ := h
  refine ⟨fun _ hc => (List.not_mem_nil hc).elim, le_rfl, fun _ hs => (List.not_mem_nil hs).elim, le_rfl, ?_, ?_, ?_⟩
  · simp [spent, State.total, stored]
  · simp [spent, State.total]
  · intro balance hb
    simpa [spent, State.total] using hcached balance hb

theorem reservations_never_overspend {settings : ReserveSettings} {start : Int} (hstart : start ≤ maxInt)
    {s t : State} {es : List Event} (hinit : Initial start s)
    (hrun : Steps (step settings) (Careful settings) s es t) : spent t ≤ max start 0 := by
  have hinv : Inv start t := hrun.invariant (fun _ e _ hok => step_inv hstart e hok) (initial_inv hinit)
  have hbound := hinv.bound
  have hgranted : 0 ≤ t.total granted := List.sum_nonneg (nonneg_of_amounts granted_amount hinv.amounts)
  omega

def accesses (i : Nat) : Nat → List Event := fun n => List.replicate n (.advance i .done)

def batched : ReserveSettings := ⟨true, true⟩

def ten : State := ⟨⟨10, none, 0, []⟩, []⟩

theorem reservations_never_overspend_flushed : ∃ t es, Steps (step batched) (Careful batched) ten es t ∧
    spent t = 10 ∧ spent t ≤ max 10 0 := by
  have hrun : Steps (step batched) (Careful batched) ten
      (.reserve 4 :: accesses 0 6 ++ [.swap, .flush 0, .buy 3] ++ accesses 1 2 ++ .reserve 3 :: accesses 2 2)
      ⟨⟨3, some 0, -3, []⟩, [.reserved 4, .bought 3, .reserved 3]⟩ := steps_of_run (by decide)
  exact ⟨_, _, hrun, rfl, reservations_never_overspend (by decide) (by unfold Initial; decide) hrun⟩

/-- The cached balance expires before the flush, and the row authorises again. -/
theorem stale_row_authorises_twice : ∃ t es, Initial 10 ten ∧ Steps (step batched) free ten es t ∧
    max 10 0 < spent t := by
  refine ⟨⟨⟨10, some 2, -16, []⟩, [.reserved 8, .reserved 8]⟩,
    .reserve 8 :: accesses 0 6 ++ .expire :: .reserve 8 :: accesses 1 6, by unfold Initial; decide,
    steps_of_run (by decide), by decide⟩

/-! ## One call alone

Nothing comes between its accesses: the call then does to the balance what the single step of a billing
session does to its account.
-/

def alone (settings : ReserveSettings) (quota : Int) (w : Wallet) : Nat → Wallet × Call
  | 0 => (w, Reserve.tryReserveUserQuota settings quota)
  | n + 1 =>
    let (w, call) := alone settings quota w n
    call.advance settings w .done

end NewApi.Spending
