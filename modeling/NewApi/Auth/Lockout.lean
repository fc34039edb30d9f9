import NewApi.Code.TwoFactor

/-!
# The lock of two-factor codes

A submission looks at the lock in the row that it has loaded.
-/

namespace NewApi.Auth.Lockout

open Calls Run Code.TwoFactor

def Inv (s : Store) : Prop := ∀ c ∈ s.checks, lockedAt c.lockedUntil c.time = false

structure Later (s t : Store) : Prop where
  time : s.now ≤ t.now
  loads : s.loads ⊆ t.loads
  checks : s.checks ⊆ t.checks
  lock : ∀ time, s.lockedUntil = some time → t.now < time → t.lockedUntil = some time

def Aware (call : Nat) (op : Op) (s : Store) : Prop :=
  match op with
  | .totp _ _ | .unusedBackupCodes | .updateUsageState _ =>
    s.locked = true → ∀ x ∈ s.loads, x.1 = call → x.2 = s.lockedUntil
  | _ => True

def Cleared (call : Nat) (s : Store) : Prop := ∃ lock, (call, lock) ∈ s.loads ∧ lockedAt lock s.now = false

def Lawful (call : Nat) (op : Op) (s : Store) : Prop :=
  match op with
  | .totp _ _ | .unusedBackupCodes | .updateUsageState _ => Cleared call s
  | .increment _ _ now _ _ => now ≤ s.now
  | _ => True

variable {lib : Library} {s t u : Store} {call : Nat}

theorem Later.refl (s : Store) : Later s s :=
  ⟨le_rfl, List.Subset.refl _, List.Subset.refl _, fun _ h _ => h⟩

theorem Later.trans (hst : Later s t) (htu : Later t u) : Later s u where
  time := hst.time.trans htu.time
  loads := List.Subset.trans hst.loads htu.loads
  checks := List.Subset.trans hst.checks htu.checks
  lock time h hu := htu.lock time (hst.lock time h (htu.time.trans_lt hu)) hu

theorem lockedAt_mono {lock : Option Int} {now later : Int} (h : lockedAt lock now = false) (hle : now ≤ later) :
    lockedAt lock later = false := by
  unfold lockedAt at h ⊢
  cases lock with
  | none => rfl
  | some =>
    simp only [Option.any_some, decide_eq_false_iff_not, not_lt] at h ⊢
    omega

theorem Cleared.later (h : Cleared call s) (hst : Later s t) : Cleared call t := by
  obtain ⟨lock, hmem, hlock⟩ := h
  exact ⟨lock, hst.loads hmem, lockedAt_mono hlock hst.time⟩

theorem Cleared.unlocked (h : Cleared call s) (haware : s.locked = true → ∀ x ∈ s.loads, x.1 = call → x.2 = s.lockedUntil) :
    s.locked = false := by
  obtain ⟨lock, hmem, hlock⟩ := h
  by_contra hlocked
  have hsame : lock = s.lockedUntil := haware (by simpa using hlocked) _ hmem rfl
  rw [hsame] at hlock
  exact hlocked hlock

theorem locked_of_lockedUntil {time : Int} (h : s.lockedUntil = some time) (hnow : s.now < time) : s.locked = true := by
  simp [Store.locked, lockedAt, h, hnow]

theorem Later.of_same (hnow : s.now ≤ t.now) (hrow : t.twoFA = s.twoFA) (hloads : s.loads ⊆ t.loads)
    (hchecks : s.checks ⊆ t.checks) : Later s t := by
  refine ⟨hnow, hloads, hchecks, fun time h _ => ?_⟩
  unfold Store.lockedUntil at h ⊢
  rw [hrow]
  exact h

theorem check_keeps (h : Inv s) (hunlocked : s.locked = false) : Inv (s.check call) ∧ Later s (s.check call) := by
  refine ⟨fun c hc => ?_, .of_same le_rfl rfl (List.Subset.refl _) (List.subset_append_left _ _)⟩
  rcases List.mem_append.mp hc with hc | hc
  · exact h c hc
  · rw [List.mem_singleton.mp hc]
    exact hunlocked

theorem updateWhere_keeps {p : TwoFA → Bool} {change : TwoFA → TwoFA} (h : Inv s)
    (hp : ∀ row time, s.twoFA = some row → row.lockedUntil = some time → s.now < time → p row = false) :
    Inv (s.updateWhere p change).2 ∧ Later s (s.updateWhere p change).2 := by
  unfold Store.updateWhere
  split
  · exact ⟨h, .refl s⟩
  rename_i row hrow
  split
  · rename_i hmeets
    refine ⟨h, le_rfl, List.Subset.refl _, List.Subset.refl _, fun time htime hnow => ?_⟩
    rw [Store.lockedUntil, hrow] at htime
    rw [hp row time hrow htime hnow] at hmeets
    cases hmeets
  · exact ⟨h, .refl s⟩

theorem act_keeps {op : Op} {fails : Bool} {r : Ans op} (h : Inv s) (hlawful : Lawful call op s) (haware : Aware call op s)
    (hact : act lib call op fails s = some (r, t)) : Inv t ∧ Later s t := by
  have hsame : Inv s ∧ Later s s := ⟨h, .refl s⟩
  cases op with
  | load =>
    simp only [act] at hact
    split at hact <;> obtain rfl := congrArg Prod.snd (Option.some.inj hact)
    · exact hsame
    · exact ⟨h, .of_same le_rfl rfl (List.subset_append_left _ _) (List.Subset.refl _)⟩
  | now =>
    obtain rfl : s = t := congrArg Prod.snd (Option.some.inj hact)
    exact hsame
  | totp =>
    obtain rfl : s.check call = t := congrArg Prod.snd (Option.some.inj hact)
    exact check_keeps h (Cleared.unlocked hlawful haware)
  | unusedBackupCodes =>
    simp only [act] at hact
    split at hact <;> obtain rfl := congrArg Prod.snd (Option.some.inj hact)
    · exact hsame
    · exact check_keeps h (Cleared.unlocked hlawful haware)
  | useBackupCode =>
    simp only [act] at hact
    split at hact <;> obtain rfl := congrArg Prod.snd (Option.some.inj hact)
    · exact hsame
    · exact ⟨h, .of_same le_rfl rfl (List.Subset.refl _) (List.Subset.refl _)⟩
  | select =>
    simp only [act] at hact
    split at hact
    · obtain rfl : s = t := congrArg Prod.snd (Option.some.inj hact)
      exact hsame
    · split at hact <;> obtain rfl : s = t := congrArg Prod.snd (Option.some.inj hact) <;> exact hsame
  | increment id failedAttempts now =>
    simp only [act] at hact
    split at hact <;> obtain rfl := congrArg Prod.snd (Option.some.inj hact)
    · exact hsame
    refine updateWhere_keeps h fun row time _ htime hnow => ?_
    -- The condition of the statement is about a time that has passed.
    have hle : now ≤ s.now := hlawful
    simp only [htime, Option.all_some, Bool.and_eq_false_iff, decide_eq_false_iff_not]
    omega
  | updateUsageState =>
    simp only [act] at hact
    split at hact <;> obtain rfl := congrArg Prod.snd (Option.some.inj hact)
    · exact hsame
    refine updateWhere_keeps h fun row time hrow htime hnow => ?_
    have hunlocked := Cleared.unlocked hlawful haware
    rw [locked_of_lockedUntil (by rw [Store.lockedUntil, hrow]; exact htime) hnow] at hunlocked
    cases hunlocked

/-! ## One submission -/

def Ok (lib : Library) (call : Nat) {α : Type} (Q : α → Store → Prop) : Call α → Store → Prop :=
  Sat (act lib call) (fun op _ s => Aware call op s) Inv Later Later Q

variable {α β : Type} {Q : α → Store → Prop}

theorem Ok.access {op : Op} {next : Ans op → Call α} (hlawful : ∀ t, Later s t → Lawful call op t)
    (hnext : ∀ t fails r u, Later s t → act lib call op fails t = some (r, u) → Later t u → Inv u → Ok lib call Q (next r) u) :
    Ok lib call Q (.access op next) s := by
  intro t ht hinv fails r u haware hact
  obtain ⟨hinv', hlater⟩ := act_keeps hinv (hlawful t ht) haware hact
  exact ⟨hinv', hlater, hnext t fails r u ht hact hlater hinv'⟩

theorem Ok.done {a : α} (h : ∀ t, Later s t → Q a t) : Ok lib call Q (.done a) s := fun t ht _ => h t ht

theorem Ok.bind {P : β → Store → Prop} {p : Call β} {f : β → Call α} (h : Ok lib call P p s) (hs : Inv s)
    (hf : ∀ b t, Inv t → P b t → Ok lib call Q (f b) t) : Ok lib call Q (p.bind f) s := Sat.bind Later.refl h hs hf

theorem Ok.clock {next : Int → Call α} (h : ∀ now t, now ≤ t.now → Later s t → Inv t → Ok lib call Q (next now) t) :
    Ok lib call Q (.access .now next) s := by
  refine Ok.access (fun _ _ => trivial) fun t fails r u ht hact _ hinv => ?_
  obtain rfl : t = u := congrArg Prod.snd (Option.some.inj hact)
  obtain rfl : t.now = r := congrArg Prod.fst (Option.some.inj hact)
  exact h _ _ le_rfl ht hinv

def Checked (call : Nat) (s : Store) : Prop := ∃ c ∈ s.checks, c.call = call

theorem Checked.later (h : Checked call s) (hst : Later s t) : Checked call t := by
  obtain ⟨c, hc, hcall⟩ := h
  exact ⟨c, hst.checks hc, hcall⟩

theorem checked_check : Checked call (s.check call) := ⟨_, List.mem_append_right _ (List.mem_singleton_self _), rfl⟩

def Passed (call : Nat) (r : Except TwoFAError Bool) (t : Store) : Prop := r = .ok true → Checked call t

theorem passed_error {e : TwoFAError} : Ok lib call (Passed call) (.done (.error e)) s := Ok.done fun _ _ h => by cases h

variable {twoFA : TwoFA} {code : String}

theorem isLocked_ok (h : (call, twoFA.lockedUntil) ∈ s.loads) :
    Ok lib call (fun locked t => Later s t ∧ (locked = false → Cleared call t)) (isLocked twoFA) s := by
  unfold isLocked
  split
  · rename_i hnone
    exact Ok.done fun t ht => ⟨ht, fun _ => ⟨none, ht.loads (hnone ▸ h), rfl⟩⟩
  · refine Ok.clock fun now t hnow ht _ => Ok.done fun u hu => ⟨ht.trans hu, fun hlock => ?_⟩
    exact ⟨_, (ht.trans hu).loads h, lockedAt_mono hlock (hnow.trans hu.time)⟩

theorem incrementLoop_ok {retries : Nat} {Q : Except TwoFAError Unit → Store → Prop} (hQ : ∀ r t, Q r t) :
    Ok lib call Q (incrementLoop twoFA retries) s := by
  induction retries generalizing s with
  | zero => exact Ok.done fun _ _ => hQ _ _
  | succ retries ih =>
    rw [incrementLoop]
    refine Ok.access (fun _ _ => trivial) fun t fails r u _ _ _ _ => ?_
    split
    · exact Ok.done fun _ _ => hQ _ _
    refine Ok.clock fun now v hnow _ _ => ?_
    split
    · exact Ok.done fun _ _ => hQ _ _
    refine Ok.access (fun w hw => hnow.trans hw.time) fun _ _ r _ _ _ _ _ => ?_
    split
    · exact Ok.done fun _ _ => hQ _ _
    · exact ih
    · exact Ok.done fun _ _ => hQ _ _

theorem recordFailure_ok (hs : Inv s) : Ok lib call (Passed call) (recordFailure twoFA) s := by
  have hincrement : Ok lib call (fun _ _ => True) (incrementFailedAttempts twoFA) s := by
    unfold incrementFailedAttempts
    split
    · exact Ok.done fun _ _ => trivial
    · exact incrementLoop_ok fun _ _ => trivial
  refine Ok.bind hincrement hs fun r t _ _ => ?_
  split
  · exact passed_error
  · exact Ok.done fun _ _ h => by cases h

theorem recordSuccess_ok (hcleared : Cleared call s) (hchecked : Checked call s) :
    Ok lib call (Passed call) (recordSuccess twoFA) s := by
  refine Ok.clock fun now t _ ht hinv => ?_
  have hupdate : ∀ twoFA, Ok lib call (fun _ u => Later t u) (updateUsageState twoFA) t := by
    intro twoFA
    unfold updateUsageState
    split
    · exact Ok.done fun _ hu => hu
    · exact Ok.access (fun u hu => hcleared.later (ht.trans hu)) fun _ _ _ _ hu _ huv _ => Ok.done fun _ hv => (hu.trans huv).trans hv
  refine Ok.bind (hupdate _) hinv fun r u _ hu => ?_
  split
  · exact passed_error
  · exact Ok.done fun v hv _ => hchecked.later ((ht.trans hu).trans hv)

theorem validateTOTPAndUpdateUsage_ok (hs : Inv s)
    (hload : (call, twoFA.lockedUntil) ∈ s.loads) : Ok lib call (Passed call) (validateTOTPAndUpdateUsage twoFA code) s := by
  refine Ok.bind (isLocked_ok hload) hs fun locked t _ ht => ?_
  split
  · exact passed_error
  have hcleared := ht.2 rfl
  refine Ok.access (fun u hu => hcleared.later hu) fun u fails r v hu hact huv hinv => ?_
  obtain rfl : u.check call = v := congrArg Prod.snd (Option.some.inj hact)
  split
  · exact recordFailure_ok hinv
  · exact recordSuccess_ok (hcleared.later (hu.trans huv)) checked_check

theorem validateBackupCode_ok (hcleared : Cleared call s) :
    Ok lib call (fun r t => Later s t ∧ Passed call r t) (validateBackupCode lib code) s := by
  unfold validateBackupCode
  split
  · exact Ok.done fun _ ht => ⟨ht, fun h => by cases h⟩
  refine Ok.access (fun u hu => hcleared.later hu) fun u fails r v hu hact huv _ => ?_
  have hsv := hu.trans huv
  split
  · exact Ok.done fun _ ht => ⟨hsv.trans ht, fun h => by cases h⟩
  have hchecked : Checked call v := by
    cases fails with
    | true => cases hact
    | false =>
      obtain rfl : u.check call = v := congrArg Prod.snd (Option.some.inj hact)
      exact checked_check
  split
  · exact Ok.done fun _ ht => ⟨hsv.trans ht, fun h => by cases h⟩
  · refine Ok.clock fun now w _ hw _ => Ok.access (fun _ _ => trivial) fun x _ _ y hx _ hxy _ => ?_
    have hvy := hw.trans (hx.trans hxy)
    exact Ok.done fun z hz => ⟨hsv.trans (hvy.trans hz), fun _ => hchecked.later (hvy.trans hz)⟩

theorem validateBackupCodeAndUpdateUsage_ok (hs : Inv s) (hload : (call, twoFA.lockedUntil) ∈ s.loads) :
    Ok lib call (Passed call) (validateBackupCodeAndUpdateUsage lib twoFA code) s := by
  refine Ok.bind (isLocked_ok hload) hs fun locked t hinv ht => ?_
  split
  · exact passed_error
  have hcleared := ht.2 rfl
  refine Ok.bind (validateBackupCode_ok hcleared) hinv fun r u hinv' hu => ?_
  split
  · exact passed_error
  · exact recordFailure_ok hinv'
  · exact recordSuccess_ok (hcleared.later hu.1) (hu.2 rfl)

theorem classify_ok (hs : Inv s) (hload : (call, twoFA.lockedUntil) ∈ s.loads) :
    Ok lib call (Passed call) (classify lib twoFA code) s := by
  unfold classify
  split
  · exact validateTOTPAndUpdateUsage_ok hs hload
  · split
    · exact validateBackupCodeAndUpdateUsage_ok hs hload
    · exact recordFailure_ok hs

def Answered (call : Nat) (r : Except TwoFAError Unit) (t : Store) : Prop := r = .ok () → Checked call t

theorem answered_error {e : TwoFAError} : Ok lib call (Answered call) (.done (.error e)) s := Ok.done fun _ _ h => by cases h

theorem verifyTwoFactorCode_ok (hs : Inv s) (hload : (call, twoFA.lockedUntil) ∈ s.loads) :
    Ok lib call (Answered call) (verifyTwoFactorCode lib (some twoFA) code) s := by
  unfold verifyTwoFactorCode
  dsimp only
  split
  · exact answered_error
  refine Ok.bind (isLocked_ok hload) hs fun locked t hinv ht => ?_
  split
  · exact answered_error
  generalize GoText.trimSpace code = trimmed
  refine Ok.bind (classify_ok hinv (ht.1.loads hload)) hinv fun r u _ hr => ?_
  split
  · exact answered_error
  · exact answered_error
  · exact Ok.done fun v hv _ => (hr rfl).later hv

theorem submit_ok (code : String) : Ok lib call (Answered call) (submit lib code) s := by
  refine Ok.access (fun _ _ => trivial) fun t fails r u ht hact _ hinv => ?_
  split
  · exact answered_error
  rename_i row
  cases row with
  | none => exact answered_error
  | some twoFA =>
    refine verifyTwoFactorCode_ok hinv ?_
    cases fails with
    | true => cases hact
    | false =>
      obtain rfl := congrArg Prod.snd (Option.some.inj hact)
      have hrow : t.twoFA = some twoFA := Except.ok.inj (congrArg Prod.fst (Option.some.inj hact))
      simp [Store.lockedUntil, hrow]

/-! ## All submissions -/

def contract (lib : Library) : Contract (machine lib) where
  allowed i _ op _ s := Aware i op s
  inv := Inv
  rely _ _ := Later
  does _ _ := Later
  post i _ := Answered i
  apart _ _ := True
  trans := Later.trans
  others _ _ _ _ h := h
  env := by
    intro e a b h ha
    cases h
    exact ⟨ha, fun _ _ => .of_same (by dsimp only; omega) rfl (List.Subset.refl _) (List.Subset.refl _)⟩

abbrev Sys := System Store String Op Ans (Except TwoFAError Unit)

/-- Whoever acts while the row is locked has loaded that lock. -/
def Informed (s : Sys) : Event String Bool Nat → Prop
  | .step i _ => ∀ c ∈ s.pending i, Aware i c.2 s.store
  | _ => True

theorem keeps_of_informed (s : Sys) (e : Event String Bool Nat) (h : Informed s e) : (contract lib).Keeps s e := by
  cases e with
  | begin => exact fun _ _ => ⟨trivial, trivial⟩
  | step => exact h
  | env => trivial

theorem later_of_steps {s t : Sys} {es : List (Event String Bool Nat)} (hfine : Fine (contract lib) s)
    (h : Steps (machine lib).step Informed s es t) : Later s.store t.store := by
  have hkeep : ∀ a e b, Informed a e → Fine (contract lib) a ∧ Later s.store a.store → (machine lib).step a e = some b →
      Fine (contract lib) b ∧ Later s.store b.store := by
    rintro a e b hok ⟨hfine, hlater⟩ hstep
    refine ⟨hfine.step (fun _ _ => Later.refl) (keeps_of_informed a e hok) (fun name _ => submit_ok name) hstep, hlater.trans ?_⟩
    rcases Machine.step_cases hstep with ⟨_, -, rfl⟩ | ⟨i, _, _, _, _, r, store, rfl, hcall, hact, rfl⟩ |
      ⟨e', store, rfl, henv, rfl⟩
    · exact .refl _
    · exact (hfine.access (fun _ _ => Later.refl) (keeps_of_informed a _ hok) hcall hact).1
    · exact ((contract lib).env henv hfine.inv).2 0 ""
  exact (h.invariant hkeep ⟨hfine, .refl _⟩).2

theorem lockout_holds {lib : Library} {now : Int} {twoFA : TwoFA} {backupCodes : Table.Keyed TwoFABackupCode.id} {s : Sys}
    {es : List (Event String Bool Nat)}
    (hrun : Steps (machine lib).step Informed (.start (.start now twoFA backupCodes)) es s) :
    (∀ i code, s.result i = some (code, .ok ()) → (∃ c ∈ s.store.checks, c.call = i) ∧
      ∀ c ∈ s.store.checks, c.call = i → lockedAt c.lockedUntil c.time = false) ∧
    (∀ es' t time, Steps (machine lib).step Informed s es' t → s.store.lockedUntil = some time → t.store.now < time →
      t.store.lockedUntil = some time) := by
  have hstart : Fine (contract lib) (.start (.start now twoFA backupCodes)) := Fine.start fun c hc => by cases hc
  have hfine := hstart.run (C := contract lib) (fun _ _ => Later.refl) (fun _ name _ _ => submit_ok name) keeps_of_informed hrun
  constructor
  · intro i code hresult
    exact ⟨hfine.post (fun _ _ => Later.refl) hresult rfl, fun c hc _ => hfine.inv c hc⟩
  · intro es' t time hlater hlock hnow
    exact (later_of_steps hfine hlater).lock time hlock hnow

instance (call : Nat) (op : Op) (s : Store) : Decidable (Aware call op s) := by
  unfold Aware
  split <;> infer_instance

instance (s : Sys) (e : Event String Bool Nat) : Decidable (Informed s e) := by
  unfold Informed
  split <;> infer_instance

def plain : Library := ⟨String.toUpper, fun code _ _ => code = "123456", fun password hash => password = hash⟩

def failing : TwoFA := ⟨1, "secret", true, 4, none, none⟩

def noCodes : Table.Keyed TwoFABackupCode.id := ⟨[], by decide⟩

def steps (i k : Nat) : List (Event String Bool Nat) := List.replicate k (.step i false)

theorem lockout_holds_failing : (∃ s : Sys, ∃ es,
    Steps (machine plain).step Informed (.start (.start 0 failing noCodes)) es s ∧ s.result 0 = some ("123456", .ok ()) ∧
      (∃ c ∈ s.store.checks, c.call = 0) ∧ ∀ c ∈ s.store.checks, c.call = 0 → lockedAt c.lockedUntil c.time = false) ∧
    (∃ s t : Sys, ∃ es es', Steps (machine plain).step Informed (.start (.start 0 failing noCodes)) es s ∧
      Steps (machine plain).step Informed s es' t ∧ s.store.lockedUntil = some (300 * second) ∧
        t.result 1 = some ("123456", .error .verificationLocked) ∧ t.store.lockedUntil = some (300 * second)) := by
  constructor
  · have hrun : (run (machine plain).step Informed (.start (.start 0 failing noCodes))
        (.begin "123456" :: steps 0 4)).any (fun s => s.result 0 = some ("123456", .ok ())) = true := by
      decide +kernel
    obtain ⟨s, hs, h⟩ := exists_of_run hrun
    have hresult := of_decide_eq_true h
    exact ⟨s, _, hs, hresult, (lockout_holds hs).1 0 _ hresult⟩
  · have hrun : (run (machine plain).step Informed (.start (.start 0 failing noCodes))
        (.begin "000000" :: steps 0 5)).any (fun s =>
          s.store.lockedUntil = some (300 * second) ∧
          ((run (machine plain).step Informed s (.env 1000 :: .begin "123456" :: steps 1 2)).any fun t =>
            t.result 1 = some ("123456", .error .verificationLocked) ∧ t.store.now < 300 * second)) = true := by
      decide +kernel
    obtain ⟨s, hs, h⟩ := exists_of_run hrun
    obtain ⟨hlock, h⟩ := of_decide_eq_true h
    obtain ⟨t, ht, h⟩ := exists_of_run h
    obtain ⟨hresult, hnow⟩ := of_decide_eq_true h
    exact ⟨s, t, _, _, hs, ht, hlock, hresult, (lockout_holds hs).2 _ t _ ht hlock hnow⟩

/-- A submission that has loaded the row before removes the lock. -/
theorem lock_removed : ∃ s t : Sys, ∃ es es',
    Steps (machine plain).step free (.start (.start 0 failing noCodes)) es s ∧ s.store.locked = true ∧
      s.pending 1 = some ("123456", .totp "secret" "123456") ∧ Steps (machine plain).step free s es' t ∧
        t.store.now = s.store.now ∧ t.result 1 = some ("123456", .ok ()) ∧ t.store.lockedUntil = none := by
  have hrun : (run (machine plain).step free (.start (.start 0 failing noCodes))
      ([.begin "000000", .begin "123456"] ++ steps 1 1 ++ steps 0 5)).any (fun s =>
        s.store.locked = true ∧ s.pending 1 = some ("123456", .totp "secret" "123456") ∧ s.store.now = 0 ∧
        ((run (machine plain).step free s (steps 1 3)).any fun t =>
          t.store.now = 0 ∧ t.result 1 = some ("123456", .ok ()) ∧ t.store.lockedUntil = none)) = true := by
    decide +kernel
  obtain ⟨s, hs, h⟩ := exists_of_run hrun
  obtain ⟨hlocked, hpending, hzero, h⟩ := of_decide_eq_true h
  obtain ⟨t, ht, h⟩ := exists_of_run h
  obtain ⟨hnow, hresult, hremoved⟩ := of_decide_eq_true h
  exact ⟨s, t, _, _, hs, hlocked, hpending, ht, hnow.trans hzero.symm, hresult, hremoved⟩

end NewApi.Auth.Lockout
