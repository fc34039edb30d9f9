import NewApi.Code.Redemption
import NewApi.Lib.Run
import NewApi.Receipts

/-!
# A redemption code pays once

A code pays again only if its status goes back to enabled. A full edit can do this unasked.
-/

namespace NewApi.RedeemOnce

open Code Code.Credit Run Receipts

/-! ## The system -/

/-- `edits` are rows read and not yet written. `paid`: what each code has paid. -/
structure State where
  db : RedemptionDb
  edits : List Redemption
  paid : List (String × Receipt)
deriving DecidableEq

inductive Event where
  | redeem (key : String) (userId : Int) (access : RedeemAccess)
  | readEdit (edit : RedemptionEdit) (now : Int)
  | writeEdit (i : Nat) (fails : Bool)

def step (s : State) : Event → Option State
  | .redeem key userId access =>
    match redeem s.db access key userId with
    | (.ok quota, db) => some { s with db, paid := s.paid ++ [(key, ⟨userId, quota⟩)] }
    | (.error _, db) => some { s with db }
  | .readEdit edit now =>
    match readForUpdate s.db edit now with
    | .error _ => some s
    | .ok cleanRedemption => some { s with edits := s.edits ++ [cleanRedemption] }
  | .writeEdit i fails =>
    s.edits[i]?.map fun cleanRedemption =>
      { s with db := (s.db.update cleanRedemption fails).2, edits := s.edits.eraseIdx i }

def State.paidFor (s : State) (key : String) : List Receipt := (s.paid.filter fun p => p.1 = key).map Prod.snd

def State.receipts (s : State) : List Receipt := s.paid.map Prod.snd

def KeepsUsed (s : State) : Event → Prop
  | .writeEdit i _ => ∀ cleanRedemption ∈ s.edits[i]?, cleanRedemption.status = redemptionCodeStatusEnabled →
      ∀ x ∈ s.db.codes, x.id = cleanRedemption.id → s.paidFor x.key = []
  | _ => True

variable {s t : State} {db after : RedemptionDb} {access : RedeemAccess} {key : String} {userId : Int}

/-! ## What a redemption does -/

theorem code_map (f : Redemption → Redemption) (hkey : ∀ x, (f x).key = x.key) (users : List Payer) (key : String) :
    RedemptionDb.code ⟨db.codes.map f, users⟩ key = (db.code key).map f := by
  unfold RedemptionDb.code
  rw [List.find?_map]
  congr 2
  funext x
  simp [hkey]

theorem redeemTx_ok {quota : Int} (h : redeemTx db access key userId = .ok (quota, after)) :
    (∃ x, db.code key = some x ∧ x.status = redemptionCodeStatusEnabled) ∧
    (∀ x, after.code key = some x → x.status ≠ redemptionCodeStatusEnabled) ∧
    (∀ k x, after.code k = some x → x.status = redemptionCodeStatusEnabled → db.code k = some x) ∧
    Credited db.users after.users ⟨userId, quota⟩ := by
  unfold redeemTx at h
  split at h
  · cases h
  rename_i redemption hread
  have hcode : db.code key = some redemption := by
    split at hread
    · cases hread
    · exact hread
  split at h
  · cases h
  rename_i henabled
  split at h
  · cases h
  split at h
  · cases h
  unfold markUsed at h
  split at h
  · cases h
  rename_i codes hmark
  split at hmark
  · cases hmark
    obtain ⟨_, hcredit, h⟩ := ok_of_bind h
    cases h
    have hstatus : redemption.status = redemptionCodeStatusEnabled := not_not.mp henabled
    refine ⟨⟨redemption, hcode, hstatus⟩, ?_, ?_, creditTopUpQuota_ok hcredit⟩
    · intro x hx
      rw [code_map _ (fun y => by split <;> rfl), hcode, Option.map_some, if_pos ⟨rfl, hstatus⟩] at hx
      cases hx
      show redemptionCodeStatusUsed ≠ redemptionCodeStatusEnabled
      decide
    · intro k x hx hx'
      rw [code_map _ (fun y => by split <;> rfl), Option.map_eq_some_iff] at hx
      obtain ⟨y, hy, rfl⟩ := hx
      split at hx'
      · cases hx'
      · rename_i hnot
        rw [hy, if_neg hnot]
  · cases hmark

theorem redeem_spec : (redeem db access key userId).2 = db ∧ (∃ e, (redeem db access key userId).1 = .error e) ∨
    ∃ quota after, redeem db access key userId = (.ok quota, after) ∧
      redeemTx db access key userId = .ok (quota, after) := by
  unfold redeem
  split
  · exact .inl ⟨rfl, _, rfl⟩
  split
  · exact .inl ⟨rfl, _, rfl⟩
  cases hbody : redeemTx db access key userId with
  | error => exact .inl ⟨rfl, _, rfl⟩
  | ok r =>
    cases access.fails .commit with
    | true => exact .inl ⟨rfl, _, rfl⟩
    | false => exact .inr ⟨r.1, r.2, rfl, rfl⟩

/-! ## The invariant -/

def Spent (key : String) (s : State) : Prop :=
  s.paidFor key = [] ∨ (s.paidFor key).length = 1 ∧ ∀ x, s.db.code key = some x → x.status ≠ redemptionCodeStatusEnabled

theorem spent_redeem {key' : String} (h : Spent key s) (hstep : step s (.redeem key' userId access) = some t) :
    Spent key t := by
  simp only [step] at hstep
  rcases redeem_spec with ⟨hsame, e, he⟩ | ⟨_, _, hredeem, htx⟩
  · rw [show redeem s.db access key' userId = (.error e, s.db) from Prod.ext he hsame] at hstep
    cases hstep
    exact h
  rw [hredeem] at hstep
  cases hstep
  obtain ⟨⟨x, hcode, henabled⟩, hused, hnew, -⟩ := redeemTx_ok htx
  unfold Spent State.paidFor
  rw [List.filter_append, List.map_append]
  by_cases hkey : key' = key
  · subst hkey
    rcases h with hnone | ⟨-, hnot⟩
    · refine .inr ⟨?_, hused⟩
      simp only [State.paidFor] at hnone
      simp [hnone]
    · exact absurd henabled (hnot x hcode)
  · rcases h with hnone | ⟨hone, hnot⟩
    · refine .inl ?_
      simp only [State.paidFor] at hnone
      simp [hnone, hkey]
    refine .inr ⟨?_, ?_⟩
    · simp only [State.paidFor] at hone
      simpa [hkey] using hone
    · intro y hy hy'
      exact hnot y (hnew key y hy hy') hy'

theorem update_spec {redemption : Redemption} {fails : Bool} : (db.update redemption fails).2 = db ∨
    (db.update redemption fails).2 = { db with codes := db.codes.map fun x =>
      if x.id = redemption.id then
        { x with
          name := redemption.name
          status := redemption.status
          quota := redemption.quota
          redeemedTime := redemption.redeemedTime
          expiredTime := redemption.expiredTime }
      else x } := by
  unfold RedemptionDb.update
  split
  · exact .inl rfl
  split
  · exact .inl rfl
  · split
    · exact .inl rfl
    · exact .inr rfl

theorem spent_write {i : Nat} {fails : Bool} (hok : KeepsUsed s (.writeEdit i fails)) (h : Spent key s)
    (hstep : step s (.writeEdit i fails) = some t) : Spent key t := by
  obtain ⟨redemption, hedit, rfl⟩ := Option.map_eq_some_iff.mp hstep
  rcases h with hnone | ⟨hone, hnot⟩
  · exact .inl hnone
  refine .inr ⟨hone, ?_⟩
  intro x hx
  rcases update_spec with hsame | hwritten
  · rw [hsame] at hx
    exact hnot x hx
  rw [hwritten, code_map _ (fun y => by split <;> rfl), Option.map_eq_some_iff] at hx
  obtain ⟨y, hy, rfl⟩ := hx
  split
  · rename_i hid
    -- The code has paid, so the edit does not write the status enabled.
    intro hstatus
    have hmem : y ∈ s.db.codes := List.mem_of_find?_eq_some hy
    have hkey : y.key = key := by simpa using List.find?_some hy
    have hunpaid := hok redemption hedit hstatus y hmem hid
    rw [hkey] at hunpaid
    rw [hunpaid] at hone
    cases hone
  · exact hnot y hy

theorem spent_step {e : Event} (hok : KeepsUsed s e) (h : Spent key s) (hstep : step s e = some t) : Spent key t := by
  cases e with
  | redeem => exact spent_redeem h hstep
  | readEdit =>
    simp only [step] at hstep
    split at hstep <;> cases hstep <;> exact h
  | writeEdit => exact spent_write hok h hstep

/-! ## The wallets -/

theorem moved_step {e : Event} (hstep : step s e = some t) : Moved s.db.users t.db.users s.receipts t.receipts := by
  cases e with
  | redeem key userId access =>
    simp only [step] at hstep
    rcases redeem_spec with ⟨hsame, e, he⟩ | ⟨_, _, hredeem, htx⟩
    · rw [show redeem s.db access key userId = (.error e, s.db) from Prod.ext he hsame] at hstep
      cases hstep
      exact .refl _ _
    rw [hredeem] at hstep
    cases hstep
    obtain ⟨-, -, -, hcredited⟩ := redeemTx_ok htx
    unfold State.receipts
    rw [List.map_append]
    exact hcredited.moved _
  | readEdit =>
    simp only [step] at hstep
    split at hstep <;> cases hstep <;> exact .refl _ _
  | writeEdit i fails =>
    obtain ⟨redemption, -, rfl⟩ := Option.map_eq_some_iff.mp hstep
    have husers : (s.db.update redemption fails).2.users = s.db.users := by
      rcases update_spec with hsame | hwritten
      · rw [hsame]
      · rw [hwritten]
    rw [husers]
    exact .refl _ _

/-! ## Runs -/

theorem code_pays_once (s t : State) (es : List Event) (hrun : Steps step KeepsUsed s es t) :
    (∀ key, s.paidFor key = [] → (t.paidFor key).length ≤ 1) ∧ Moved s.db.users t.db.users s.receipts t.receipts := by
  constructor
  · intro key hnone
    have hspent : Spent key t := hrun.invariant (fun _ _ _ hok h hstep => spent_step hok h hstep) (.inl hnone)
    rcases hspent with hnone | ⟨hone, -⟩
    · simp [hnone]
    · exact hone.le
  · have hkeep : ∀ u e v, KeepsUsed u e → Moved s.db.users u.db.users s.receipts u.receipts →
        step u e = some v → Moved s.db.users v.db.users s.receipts v.receipts :=
      fun _ _ _ _ hu hstep => hu.trans (moved_step hstep)
    exact hrun.invariant hkeep (.refl _ _)

def sampleCode : Redemption := ⟨1, "K", redemptionCodeStatusEnabled, "spring", 500, 0, 0, 0⟩

def sampleState : State := ⟨⟨[sampleCode], [⟨1, 0, "", ""⟩, ⟨2, 0, "", ""⟩]⟩, [], []⟩

def smooth : RedeemAccess := ⟨1700000000, fun _ => false⟩

def rename : RedemptionEdit := ⟨1, false, 0, "summer", 500, 0⟩

def usedState : State :=
  ⟨⟨[{ sampleCode with status := redemptionCodeStatusUsed, redeemedTime := 1700000000, usedUserId := 1 }],
    [⟨1, 500, "", ""⟩, ⟨2, 0, "", ""⟩]⟩, [], [("K", ⟨1, 500⟩)]⟩

theorem code_pays_once_twice : Steps step KeepsUsed sampleState
      [.redeem "K" 1 smooth, .redeem "K" 2 smooth] usedState ∧ (usedState.paidFor "K").length ≤ 1 := by
  have hfirst : step sampleState (.redeem "K" 1 smooth) = some usedState := by decide +kernel
  have hsecond : step usedState (.redeem "K" 2 smooth) = some usedState := by decide +kernel
  have hrun : Steps step KeepsUsed sampleState [.redeem "K" 1 smooth, .redeem "K" 2 smooth] usedState :=
    .more trivial hfirst (.more trivial hsecond (.done _))
  exact ⟨hrun, (code_pays_once _ _ _ hrun).1 "K" rfl⟩

/-- The edit writes back the old status, and the code pays a second user. -/
theorem renamed_code_pays_twice : ∃ t, Steps step free sampleState
      [.readEdit rename 1700000000, .redeem "K" 1 smooth, .writeEdit 0 false, .redeem "K" 2 smooth] t ∧
    t.paidFor "K" = [⟨1, 500⟩, ⟨2, 500⟩] ∧ balance t.db.users 1 = some 500 ∧ balance t.db.users 2 = some 500 := by
  have hpaid : (run step free sampleState
      [.readEdit rename 1700000000, .redeem "K" 1 smooth, .writeEdit 0 false, .redeem "K" 2 smooth]).map
        (fun t => (t.paidFor "K", balance t.db.users 1, balance t.db.users 2)) =
          some ([⟨1, 500⟩, ⟨2, 500⟩], some 500, some 500) := by
    decide +kernel
  obtain ⟨t, ht, hall⟩ := Option.map_eq_some_iff.mp hpaid
  rw [Prod.mk.injEq, Prod.mk.injEq] at hall
  exact ⟨t, steps_of_run ht, hall⟩

end NewApi.RedeemOnce
