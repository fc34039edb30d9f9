import NewApi.Lib.Run
import NewApi.Moves

/-!
# The ceiling of a wallet

Payments, direct refunds and adjustments compare the balance with `maxWalletQuota`; the others do not.
-/

namespace NewApi.Ceiling

open GoTime Code.Credit Code.Wallets Run Moves

def Fits (settings : Settings) (w : UserWallet) : Event → Prop
  | .operation (.checkin today draw fails) =>
    ChecksIn settings w today fails → w.db + quotaAwarded settings.checkin draw ≤ maxWalletQuota
  | .operation (.transfer quota fails) =>
    Transfers settings w quota fails → wrap64 (w.db + quota) ≤ maxWalletQuota
  | .flush fails => fails = false → w.db + w.queue ≤ maxWalletQuota
  | _ => True

def Credits : Operation → Prop
  | .decrease .. => False
  | _ => True

variable {settings : Settings} {w t : UserWallet}

/-! ## One step -/

theorem operation_le_iff (op : Operation) (h : w.db ≤ maxWalletQuota) :
    (op.run settings w).2.db ≤ maxWalletQuota ↔ Fits settings w (.operation op) := by
  cases op with
  | pay creditedQuota fails =>
    refine iff_of_true ?_ trivial
    rcases pay_spec settings w creditedQuota fails with ⟨e, he⟩ | ⟨after, hafter, -, hle⟩
    · rwa [Operation.run, he]
    · rwa [Operation.run, hafter]
  | increase quota db fails =>
    refine iff_of_true ?_ trivial
    rcases increaseUserQuota_spec settings w quota db fails with
      ⟨e, he⟩ | ⟨after, hafter, hqueued, -⟩ | ⟨after, hafter, -, hle⟩
    · rwa [Operation.run, he]
    · rwa [Operation.run, hafter, hqueued.db_eq]
    · rwa [Operation.run, hafter]
  | decrease quota db fails =>
    refine iff_of_true ?_ trivial
    rcases decreaseUserQuota_spec settings w quota db fails with
      ⟨e, he⟩ | ⟨e, he, -⟩ | ⟨hquota, after, hafter, ⟨hqueued, -⟩ | hwritten⟩
    · rwa [Operation.run, he]
    · rwa [Operation.run, he, db_cacheIncrUserQuota]
    · rwa [Operation.run, hafter, hqueued.db_eq]
    · rw [Operation.run, hafter, hwritten.db_eq]
      omega
  | checkin today draw fails =>
    simp only [Operation.run, Fits]
    rcases userCheckin_spec settings w today draw fails with
      ⟨e, after, he, hsame, hnot⟩ | ⟨after, hafter, hwritten, hchecks | ⟨hle, hnot⟩⟩
    · rw [he, hsame.db_eq]
      exact iff_of_true h fun hchecks => absurd hchecks hnot
    · rw [hafter, hwritten.db_eq]
      exact ⟨fun hle _ => hle, fun hfits => hfits hchecks⟩
    · rw [hafter]
      exact iff_of_true hle fun hchecks => absurd hchecks hnot
  | transfer quota fails =>
    simp only [Operation.run, Fits]
    rcases transferAffQuotaToQuota_spec settings w quota fails with ⟨e, he, hnot⟩ | ⟨hdone, htransfers⟩
    · rw [he]
      exact iff_of_true h fun htransfers => absurd htransfers hnot
    · rw [hdone]
      exact ⟨fun hle _ => hle, fun hfits => hfits htransfers⟩
  | adjust operatorRole mode value fails =>
    refine iff_of_true ?_ trivial
    rcases adjustUserQuota_spec settings w operatorRole mode value fails with ⟨e, he⟩ | ⟨_, _, hafter, -, hle⟩
    · rwa [Operation.run, he]
    · rwa [Operation.run, hafter]

theorem step_le_iff {e : Event} (h : w.db ≤ maxWalletQuota) (hstep : step settings w e = some t) :
    t.db ≤ maxWalletQuota ↔ Fits settings w e := by
  cases e with
  | operation op =>
    cases hstep
    exact operation_le_iff op h
  | call start =>
    refine iff_of_true ?_ trivial
    obtain ⟨_, hfinish, rfl⟩ := Option.map_eq_some_iff.mp hstep
    obtain ⟨_, _, htaken, -, -, ⟨hdb, -⟩ | ⟨-, -, hdb, -⟩⟩ := finishCall_charged (stage_start start) hfinish
    · dsimp only
      omega
    · dsimp only
      omega
  | flush fails =>
    cases hstep
    cases fails with
    | true => exact iff_of_true h nofun
    | false => exact ⟨fun hle _ => hle, fun hfits => hfits rfl⟩
  | expire =>
    cases hstep
    exact iff_of_true h trivial

theorem ok_ne_error {r : Outcome} {e : Code.Error} (h : r = (.ok (), t)) : r.1 ≠ .error e := by
  rw [h]
  exact nofun

theorem refused_same {op : Operation} {e : Code.Error} (hcredits : Credits op)
    (hrefused : (op.run settings w).1 = .error e) : Same w (op.run settings w).2 := by
  cases op with
  | pay creditedQuota fails =>
    simp only [Operation.run] at hrefused ⊢
    rcases pay_spec settings w creditedQuota fails with ⟨e, he⟩ | ⟨after, hafter, -⟩
    · rw [he]
      exact .refl
    · exact absurd hrefused (ok_ne_error hafter)
  | increase quota db fails =>
    simp only [Operation.run] at hrefused ⊢
    rcases increaseUserQuota_spec settings w quota db fails with ⟨e, he⟩ | ⟨after, hafter, -⟩ | ⟨after, hafter, -⟩
    · rw [he]
      exact .refl
    · exact absurd hrefused (ok_ne_error hafter)
    · exact absurd hrefused (ok_ne_error hafter)
  | decrease => cases hcredits
  | checkin today draw fails =>
    simp only [Operation.run] at hrefused ⊢
    rcases userCheckin_spec settings w today draw fails with ⟨e, after, he, hsame, -⟩ | ⟨after, hafter, -⟩
    · rwa [he]
    · exact absurd hrefused (ok_ne_error hafter)
  | transfer quota fails =>
    simp only [Operation.run] at hrefused ⊢
    rcases transferAffQuotaToQuota_spec settings w quota fails with ⟨e, he, -⟩ | ⟨hdone, -⟩
    · rw [he]
      exact .refl
    · exact absurd hrefused (ok_ne_error hdone)
  | adjust operatorRole mode value fails =>
    simp only [Operation.run] at hrefused ⊢
    rcases adjustUserQuota_spec settings w operatorRole mode value fails with ⟨e, he⟩ | ⟨_, _, hafter, -⟩
    · rw [he]
      exact .refl
    · exact absurd hrefused (ok_ne_error hafter)

/-! ## Runs -/

theorem ceiling_kept (settings : Settings) (w t : UserWallet) (h : w.db ≤ maxWalletQuota) :
    (∀ es, Steps (step settings) (Fits settings) w es t → t.db ≤ maxWalletQuota) ∧
    (∀ e, step settings w e = some t → (t.db ≤ maxWalletQuota ↔ Fits settings w e)) ∧
    ∀ op e, Credits op → (op.run settings w).1 = .error e → Same w (op.run settings w).2 := by
  refine ⟨?_, fun e hstep => step_le_iff h hstep, fun op e => refused_same⟩
  intro es hrun
  have hkeep : ∀ u e v, Fits settings u e → u.db ≤ maxWalletQuota → step settings u e = some v →
      v.db ≤ maxWalletQuota := fun _ _ _ hfits hu hstep => (step_le_iff hu hstep).mpr hfits
  exact hrun.invariant hkeep h

def sampleSettings : Settings := ⟨⟨true, true⟩, false, 500000, ⟨true, 1000, 1000⟩⟩

def emptyWallet : UserWallet := ⟨⟨0, some 0, 0, []⟩, 500000, 1, []⟩

def transferred : UserWallet := { emptyWallet with db := 500000, affQuota := 0 }

theorem ceiling_kept_transfer : Steps (step sampleSettings) (Fits sampleSettings) emptyWallet
      [.operation (.transfer 500000 false), .operation (.pay maxWalletQuota false)] transferred ∧
    transferred.db ≤ maxWalletQuota := by
  have hfirst : step sampleSettings emptyWallet (.operation (.transfer 500000 false)) = some transferred := by
    decide +kernel
  have hsecond : step sampleSettings transferred (.operation (.pay maxWalletQuota false)) = some transferred := by
    decide +kernel
  have hfits : Fits sampleSettings emptyWallet (.operation (.transfer 500000 false)) := by
    intro _
    decide +kernel
  have hrun : Steps (step sampleSettings) (Fits sampleSettings) emptyWallet
      [.operation (.transfer 500000 false), .operation (.pay maxWalletQuota false)] transferred :=
    .more hfits hfirst (.more trivial hsecond (.done _))
  exact ⟨hrun, (ceiling_kept sampleSettings emptyWallet transferred (by decide +kernel)).1 _ hrun⟩

def fullWallet : UserWallet := ⟨⟨maxWalletQuota, some maxWalletQuota, 0, []⟩, 500000, 1, []⟩

theorem ceiling_exceeded :
    (∃ t, Steps (step sampleSettings) free fullWallet [.operation (.transfer 500000 false)] t ∧
      t.db = maxWalletQuota + 500000) ∧
    (∃ t, Steps (step sampleSettings) free fullWallet
        [.operation (.checkin "2026-01-01" 0 ⟨false, false, false, false, false⟩)] t ∧
      t.db = maxWalletQuota + 1000) ∧
    ∃ t, Steps (step sampleSettings) free fullWallet [.operation (.increase 1000 false false), .flush false] t ∧
      t.db = maxWalletQuota + 1000 := by
  have hreach : ∀ es db, (run (step sampleSettings) free fullWallet es).map (fun t => t.db) = some db →
      ∃ t, Steps (step sampleSettings) free fullWallet es t ∧ t.db = db := by
    intro es db h
    obtain ⟨t, ht, hdb⟩ := Option.map_eq_some_iff.mp h
    exact ⟨t, steps_of_run ht, hdb⟩
  exact ⟨hreach _ _ (by decide +kernel), hreach _ _ (by decide +kernel), hreach _ _ (by decide +kernel)⟩

end NewApi.Ceiling
