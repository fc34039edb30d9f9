import NewApi.Code.Credit

/-!
# What a payment does to the wallets

The one thing that orders and redemption codes share: a receipt, and the wallet that has grown by it.
-/

namespace NewApi.Receipts

open Table Code.Credit

variable {users after : List Payer} {receipt : Receipt}

def balance (users : List Payer) (userId : Int) : Option Int := (lookup Payer.id users userId).map Payer.quota

def Credited (users after : List Payer) (receipt : Receipt) : Prop :=
  0 < receipt.quota ∧ ∀ userId, balance after userId =
    (balance users userId).map fun quota => if receipt.userId = userId then quota + receipt.quota else quota

theorem creditTopUpQuota_ok {fails : Bool} {userId quota : Int} {updates : Payer → Payer}
    (h : creditTopUpQuota users fails userId quota updates = .ok after) : Credited users after ⟨userId, quota⟩ := by
  unfold creditTopUpQuota at h
  split at h
  · cases h
  split at h
  · cases h
  split at h
  · cases h
  rename_i user huser
  split at h
  · cases h
  rename_i hbalance
  obtain ⟨hpos, rfl, -⟩ := creditBalance_ok hbalance
  cases h
  have hkey : user.id = userId := key_of_lookup huser
  refine ⟨hpos, fun id => ?_⟩
  unfold balance
  rw [lookup_save]
  simp only [hkey]
  split
  · rename_i he
    subst he
    simp [huser]
  · simp [Function.comp_def]

def total (receipts : List Receipt) (userId : Int) : Int :=
  ((receipts.filter fun r => r.userId = userId).map Receipt.quota).sum

def Moved (users after : List Payer) (old new : List Receipt) : Prop :=
  ∀ userId, balance after userId = (balance users userId).map fun quota => quota + (total new userId - total old userId)

theorem Moved.refl (users : List Payer) (receipts : List Receipt) : Moved users users receipts receipts := by
  intro userId
  simp

theorem Moved.trans {last : List Payer} {old mid new : List Receipt} (h₁ : Moved users after old mid)
    (h₂ : Moved after last mid new) : Moved users last old new := by
  intro userId
  rw [h₂ userId, h₁ userId, Option.map_map]
  congr 1
  funext quota
  simp only [Function.comp]
  omega

theorem Credited.moved (h : Credited users after receipt) (receipts : List Receipt) :
    Moved users after receipts (receipts ++ [receipt]) := by
  intro userId
  rw [h.2 userId]
  congr 1
  funext quota
  unfold total
  rw [List.filter_append, List.map_append, List.sum_append]
  split
  · rename_i he
    simp [he]
  · rename_i hne
    simp [hne]

end NewApi.Receipts
