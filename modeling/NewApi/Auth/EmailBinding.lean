import NewApi.Code.EmailBinding
import Mathlib.Algebra.Order.Group.Int

/-!
# An email is changed once, by the codes that are stored

Whoever gets past the checks holds the lock of its row until it commits.
-/

namespace NewApi.Auth.EmailBinding

open Calls Run Code.EmailBinding

def failed (s : Store) : Nat := (s.flow.payload.map EmailBindingState.failedAttempts).getD 0

/-- `calm`: no statement fails. `before`: the attempts counted at the start. -/
structure Frame where
  lib : Library
  calm : Prop
  before : Nat

/-- Wrong submissions are counted, lost, or at hand. -/
structure Counted (f : Frame) (s : Store) : Prop where
  kept : f.calm → s.lost = 0
  count : s.wrong + f.before = failed s + s.lost + s.doubt.toNat
  idle : s.holder = none → s.doubt = false
  doubt : s.doubt = true → failed s < emailBindingMaxAttempts
  limit : failed s ≤ max emailBindingMaxAttempts f.before
  once : s.changes.length ≤ 1 ∧ (s.changes ≠ [] → s.flow.consumedAt ≠ none)

structure Later (s t : Store) : Prop where
  now : s.now ≤ t.now
  row : t.flow.token = s.flow.token ∧ t.flow.userId = s.flow.userId ∧ t.flow.sessionId = s.flow.sessionId
  deadline : t.flow.expiresAt = s.flow.expiresAt
  consumed : s.flow.consumedAt ≠ none → t.flow.consumedAt ≠ none
  failed : failed s ≤ failed t

/-- Nobody else touches the row that call `i` has locked. -/
def Keeps (i : Nat) (s t : Store) : Prop :=
  (t.holder = some i → s.holder = some i) ∧
    (s.holder = some i → t.holder = some i ∧ t.flow = s.flow ∧ t.looked = s.looked ∧ t.doubt = s.doubt)

/-- Both codes, in time, for a flow that is open. -/
def Right (lib : Library) (c : Change) : Name → Prop
  | .complete identity token email newCode oldCode => ∃ state, c.flow.payload = some state ∧ state.email = email ∧
      lib.codesMatch state newCode oldCode = true ∧ c.flow.matches identity token = true ∧
      c.flow.consumedAt = none ∧ c.looked < c.flow.expiresAt
  | .resend _ _ _ _ => False

structure Does (lib : Library) (i : Nat) (name : Name) (s t : Store) : Prop where
  later : Later s t
  keeps : ∀ j, i ≠ j → Keeps j s t
  changes : ∀ c ∈ t.changes, c ∈ s.changes ∨ c.call = i ∧ Right lib c name

/-- An access that keeps the count and does only what a call may do. -/
structure Moved (f : Frame) (i : Nat) (name : Name) (s t : Store) : Prop where
  counted : Counted f t
  does : Does f.lib i name s t

variable {f : Frame} {i : Nat} {name : Name} {s t u : Store}

theorem Later.of_flow (hnow : s.now ≤ t.now) (hflow : t.flow = s.flow) : Later s t := by
  refine ⟨hnow, ?_, ?_, ?_, ?_⟩
  · simp [hflow]
  · rw [hflow]
  · rw [hflow]
    exact id
  · rw [EmailBinding.failed, EmailBinding.failed, hflow]

theorem Later.trans (hst : Later s t) (htu : Later t u) : Later s u where
  now := hst.now.trans htu.now
  row := ⟨htu.row.1.trans hst.row.1, htu.row.2.1.trans hst.row.2.1, htu.row.2.2.trans hst.row.2.2⟩
  deadline := htu.deadline.trans hst.deadline
  consumed h := htu.consumed (hst.consumed h)
  failed := hst.failed.trans htu.failed

theorem Keeps.trans (hst : Keeps i s t) (htu : Keeps i t u) : Keeps i s u := by
  refine ⟨fun hu => hst.1 (htu.1 hu), fun hs => ?_⟩
  obtain ⟨ht, hflow, hlooked, hdoubt⟩ := hst.2 hs
  obtain ⟨hu, hflow', hlooked', hdoubt'⟩ := htu.2 ht
  exact ⟨hu, hflow'.trans hflow, hlooked'.trans hlooked, hdoubt'.trans hdoubt⟩

theorem Keeps.of_same (hholder : t.holder = s.holder) (hflow : t.flow = s.flow) (hlooked : t.looked = s.looked)
    (hdoubt : t.doubt = s.doubt) : Keeps i s t :=
  ⟨fun h => hholder.symm.trans h, fun h => ⟨hholder.trans h, hflow, hlooked, hdoubt⟩⟩

def Mine (i : Nat) (s : Store) : Prop := s.holder = none ∨ s.holder = some i

theorem Mine.not_other {j : Nat} (h : Mine i s) (hij : i ≠ j) : s.holder ≠ some j := by
  intro hj
  rcases h with h | h
  · cases h.symm.trans hj
  · exact hij (Option.some.inj (h.symm.trans hj))

/-- The lock of another call is not looked at. -/
theorem Keeps.of_mine {j : Nat} (hs : Mine i s) (ht : Mine i t) (hij : i ≠ j) : Keeps j s t :=
  ⟨fun h => absurd h (ht.not_other hij), fun h => absurd h (hs.not_other hij)⟩

theorem Moved.refl (h : Counted f s) : Moved f i name s s :=
  ⟨h, .of_flow le_rfl rfl, fun _ _ => .of_same rfl rfl rfl rfl, fun _ h => .inl h⟩

theorem Moved.own (h : Counted f t) (hs : Mine i s) (ht : Mine i t) (hlater : Later s t)
    (hchanges : t.changes = s.changes) : Moved f i name s t :=
  ⟨h, hlater, fun _ => .of_mine hs ht, fun _ hc => .inl (hchanges ▸ hc)⟩

def contract (f : Frame) : Contract (machine f.lib) where
  allowed := fun _ _ _ fails _ => f.calm → fails = none
  inv := Counted f
  rely := fun i _ s t => Later s t ∧ Keeps i s t
  does := Does f.lib
  post := fun _ _ _ _ => True
  apart := fun _ _ => True
  trans := fun h h' => ⟨h.1.trans h'.1, h.2.trans h'.2⟩
  others := fun hij _ _ _ h => ⟨h.later, h.keeps _ hij⟩
  env := by
    intro e s t h hs
    obtain rfl : s.env e = t := Option.some.inj h
    cases e with
    | elapse ns =>
      refine ⟨⟨hs.kept, hs.count, hs.idle, hs.doubt, hs.limit, hs.once⟩, fun i _ => ⟨.of_flow ?_ rfl, ?_⟩⟩
      · exact Int.le_add_of_nonneg_right (Int.natCast_nonneg ns)
      · exact .of_same rfl rfl rfl rfl
    | setEmail email =>
      exact ⟨⟨hs.kept, hs.count, hs.idle, hs.doubt, hs.limit, hs.once⟩,
        fun i _ => ⟨.of_flow le_rfl rfl, .of_same rfl rfl rfl rfl⟩⟩

/-! ## One call -/

def Ok (f : Frame) (i : Nat) (name : Name) : Call → Store → Prop := (contract f).Sat i name

def Clear (i : Nat) (s : Store) : Prop := s.holder = some i → s.doubt = false

theorem Clear.keeps (h : Clear i s) (hst : Keeps i s t) : Clear i t := by
  intro ht
  rw [(hst.2 (hst.1 ht)).2.2.2]
  exact h (hst.1 ht)

theorem Ok.fail {e : BindingError} (hs : f.calm → Clear i s) : Ok f i name (fail e) s := by
  rintro t ⟨-, hkeeps⟩ ht _ r u _ hact
  cases hact
  suffices hroll : Moved f i name t (t.rollback i) from ⟨hroll.counted, hroll.does, fun _ _ _ => trivial⟩
  unfold Store.rollback
  split
  · rename_i hheld
    refine .own ⟨fun hcalm => ?_, ?_, fun _ => rfl, fun hd => (Bool.false_ne_true hd).elim, ht.limit, ht.once⟩
      (.inr hheld) (.inl rfl) (.of_flow le_rfl rfl) rfl
    · simp [(hs hcalm).keeps hkeeps hheld, ht.kept hcalm]
    · have hcount := ht.count
      simp only [failed, Bool.toNat_false] at hcount ⊢
      omega
  · exact .refl ht

theorem act_error {op : Op} {fails : Option BindingError} {e : BindingError} (h : act i op fails s = some (.error e, t)) :
    t = s ∧ fails ≠ none := by
  cases op <;> cases fails <;> simp_all [act, reply]

/-- A statement that fails leaves the store alone, and the call rolls back. -/
theorem Ok.access {op : Op} {next : Ret op → Call}
    (h : ∀ t, Later s t → Keeps i s t → Counted f t → ∀ fails r u, act i op fails t = some (.ok r, u) →
      Moved f i name t u ∧ Ok f i name (next r) u) : Ok f i name (exec op next) s := by
  rintro t ⟨hlater, hkeeps⟩ ht fails r u hallowed hact
  rcases r with e | r
  · obtain ⟨rfl, hfails⟩ := act_error hact
    exact ⟨ht, (Moved.refl ht).does, Ok.fail fun hcalm => absurd (hallowed hcalm) hfails⟩
  · obtain ⟨hmoved, hnext⟩ := h t hlater hkeeps ht fails r u hact
    exact ⟨hmoved.counted, hmoved.does, hnext⟩

def Quiet : Op → Prop
  | .lockNormalizedEmail _ | .first _ _ | .validateAuthSession _ | .firstUser | .ensureEmailAvailable _ | .update _ => True
  | _ => False

theorem act_quiet {op : Op} (hop : Quiet op) {fails : Option BindingError} {r : Ret op}
    (h : act i op fails s = some (.ok r, t)) : t = s := by
  cases op <;> cases fails <;> simp_all [act, reply, Quiet]

theorem Ok.quiet (op : Op) {next : Ret op → Call} (hop : Quiet op)
    (h : ∀ t, Later s t → Keeps i s t → ∀ fails r, act i op fails t = some (.ok r, t) → Ok f i name (next r) t) :
    Ok f i name (exec op next) s := by
  refine Ok.access fun t hlater hkeeps ht fails r u hact => ?_
  obtain rfl : u = t := act_quiet hop hact
  exact ⟨.refl ht, h u hlater hkeeps fails r hact⟩

/-- What a call knows once it is past the checks. -/
structure Open (i : Nat) (identity : AuthSessionIdentity) (token : String) (state : EmailBindingState) (s : Store) : Prop where
  holder : s.holder = some i
  certain : s.doubt = false
  payload : s.flow.payload = some state
  mine : s.flow.matches identity token = true
  unconsumed : s.flow.consumedAt = none
  early : s.looked < s.flow.expiresAt

variable {identity : AuthSessionIdentity} {token : String} {state : EmailBindingState}

theorem Open.keeps (h : Open i identity token state s) (hst : Keeps i s t) : Open i identity token state t := by
  obtain ⟨hholder, hflow, hlooked, hdoubt⟩ := hst.2 h.holder
  exact ⟨hholder, hdoubt.trans h.certain, hflow ▸ h.payload, hflow ▸ h.mine, hflow ▸ h.unconsumed,
    by rw [hlooked, hflow]; exact h.early⟩

theorem Open.fail {e : BindingError} (h : Open i identity token state s) : Ok f i name (fail e) s :=
  Ok.fail fun _ _ => h.certain

/-- The lock is held, or the checks will fail. -/
def Settled (i : Nat) (identity : AuthSessionIdentity) (token : String) (s : Store) : Prop :=
  s.holder = some i ∨ (s.flow.matches identity token = true → s.flow.consumedAt = none → s.flow.expiresAt ≤ s.now)

theorem Settled.later (h : Settled i identity token s) (hlater : Later s t) (hkeeps : Keeps i s t) :
    Settled i identity token t := by
  rcases h with hholder | hdead
  · exact .inl (hkeeps.2 hholder).1
  · refine .inr fun hmine hunconsumed => ?_
    rw [hlater.deadline]
    refine (hdead ?_ ?_).trans hlater.now
    · simpa [AuthFlow.matches, hlater.row.1, hlater.row.2.1, hlater.row.2.2] using hmine
    · by_contra hconsumed
      exact hlater.consumed hconsumed hunconsumed

theorem Ok.validate {next : Call} (hs : Open i identity token state s)
    (h : ∀ t, Open i identity token state t → Ok f i name next t) :
    Ok f i name (validateEmailBindingAccountWithTx f.lib identity state next) s := by
  unfold validateEmailBindingAccountWithTx
  split
  · exact hs.fail
  refine Ok.quiet (.validateAuthSession identity) trivial fun t _ ht _ _ _ =>
    Ok.quiet .firstUser trivial fun u _ hu _ _ _ => ?_
  have hopen := (hs.keeps ht).keeps hu
  split
  · exact hopen.fail
  · exact h u hopen

theorem lock_settles (h : Counted f s) (hs : Clear i s) (hlock : s.lock i identity token = some t) :
    Moved f i name s t ∧ Clear i t ∧ Settled i identity token t := by
  unfold Store.lock at hlock
  split at hlock
  · split at hlock
    · rename_i hfree
      cases hlock
      have hcounted : Counted f { s with holder := some i } :=
        ⟨h.kept, h.count, fun hnone => (Option.some_ne_none i hnone).elim, h.doubt, h.limit, h.once⟩
      exact ⟨.own hcounted (.inl hfree) (.inr rfl) (.of_flow le_rfl rfl) rfl, fun _ => h.idle hfree, .inl rfl⟩
    · cases hlock
  · rename_i hdead
    cases hlock
    refine ⟨.refl h, hs, .inr fun hmine hunconsumed => ?_⟩
    by_contra hearly
    exact hdead ⟨hmine, hunconsumed, not_le.mp hearly⟩

theorem look_moved (h : Counted f s) : Moved f i name s (s.look i) := by
  unfold Store.look
  split
  · rename_i hheld
    exact .own ⟨h.kept, h.count, h.idle, h.doubt, h.limit, h.once⟩ (.inr hheld) (.inr hheld) (.of_flow le_rfl rfl) rfl
  · exact .refl h

theorem look_clear (h : Clear i s) : Clear i (s.look i) := by
  unfold Store.look
  split <;> exact h

theorem Ok.lock {next : EmailBindingState → Call} (hs : Clear i s)
    (h : ∀ t state, Open i identity token state t → state.failedAttempts < emailBindingMaxAttempts →
      Ok f i name (next state) t) : Ok f i name (lockEmailBindingWithTx f.lib identity token next) s := by
  refine Ok.access fun t _ hkeeps ht fails r u hact => ?_
  cases fails with
  | some => cases hact
  | none =>
  obtain ⟨_, hlock, heq⟩ := Option.map_eq_some_iff.mp hact
  cases heq
  obtain ⟨hmoved, hclear, hsettled⟩ := lock_settles ht (hs.keeps hkeeps) hlock
  refine ⟨hmoved, Ok.quiet (.first identity token) trivial fun v hlater hkeeps fails flow hact => ?_⟩
  have hclear := hclear.keeps hkeeps
  have hsettled := hsettled.later hlater hkeeps
  cases fails with
  | some => cases hact
  | none =>
  obtain rfl : (if v.flow.matches identity token then some v.flow else none) = flow := by
    simpa [act, reply] using hact
  split
  · exact Ok.fail fun _ => hclear
  rename_i flow hflow
  obtain ⟨hmine, rfl⟩ : v.flow.matches identity token = true ∧ v.flow = flow := by
    split at hflow
    · exact ⟨‹_›, Option.some.inj hflow⟩
    · cases hflow
  split
  · exact Ok.fail fun _ => hclear
  rename_i hunconsumed
  refine Ok.access fun w hlater hkeeps hw _ now x hact => ?_
  cases hact
  have hclear := look_clear (hclear.keeps hkeeps)
  refine ⟨look_moved hw, ?_⟩
  split
  · exact Ok.fail fun _ => hclear
  rename_i hearly
  rcases hsettled with hholder | hdead
  · obtain ⟨hholder', hflow, -, -⟩ := hkeeps.2 hholder
    split
    · exact Ok.fail fun _ => hclear
    rename_i state hpayload
    have hlook : w.look i = { w with looked := w.now } := if_pos hholder'
    rw [hlook] at hclear ⊢
    refine Ok.validate (?_ : Open i identity token state _) fun y hy => ?_
    · exact ⟨hholder', hclear hholder', hflow ▸ hpayload, hflow ▸ hmine, hflow ▸ not_not.mp hunconsumed,
        hflow ▸ not_le.mp hearly⟩
    · split
      · exact hy.fail
      · exact h y state hy (not_le.mp ‹_›)
  · exact absurd ((hdead hmine (not_not.mp hunconsumed)).trans hlater.now) hearly

theorem commit_payload {next : EmailBindingState} (h : Counted f s) (hheld : s.holder = some i)
    (hpayload : s.flow.payload = some state) (hnext : next.failedAttempts = state.failedAttempts + s.doubt.toNat) :
    Moved f i name s (s.commit i [.payload next]) := by
  have hfailed : failed (s.commit i [.payload next]) = failed s + s.doubt.toNat := by
    rw [show failed s = state.failedAttempts by simp [failed, hpayload], ← hnext]
    rfl
  refine .own ⟨h.kept, ?_, fun _ => rfl, fun hd => (Bool.false_ne_true hd).elim, ?_, h.once⟩ (.inr hheld) (.inl rfl)
    ⟨le_rfl, ⟨rfl, rfl, rfl⟩, rfl, id, ?_⟩ rfl
  · rw [hfailed]
    have hcount := h.count
    change s.wrong + f.before = failed s + s.doubt.toNat + s.lost + 0
    omega
  · rw [hfailed]
    cases hdoubt : s.doubt with
    | false => exact h.limit
    | true => exact le_max_of_le_left (h.doubt hdoubt)
  · rw [hfailed]
    exact Nat.le_add_right _ _

theorem commit_email {email newCode oldCode : String} (h : Counted f s) (hs : Open i identity token state s)
    (hemail : state.email = email) (hcodes : f.lib.codesMatch state newCode oldCode = true) :
    Moved f i (.complete identity token email newCode oldCode) s (s.commit i [.email state.email, .consumed]) := by
  have hnone : s.changes = [] := by
    by_contra hsome
    exact h.once.2 hsome hs.unconsumed
  have hchanges : (s.commit i [.email state.email, .consumed]).changes = [⟨i, s.flow, s.looked⟩] := by
    simp [Store.commit, Store.write, hnone]
  refine ⟨⟨h.kept, ?_, fun _ => rfl, fun hd => (Bool.false_ne_true hd).elim, h.limit, by simp [hchanges],
    fun _ => Option.some_ne_none _⟩, ⟨le_rfl, ⟨rfl, rfl, rfl⟩, rfl, fun _ => Option.some_ne_none _, le_rfl⟩,
    fun _ => .of_mine (.inr hs.holder) (.inl rfl), fun c hc => .inr ?_⟩
  · have hcount := h.count
    rw [hs.certain] at hcount
    exact hcount
  · rw [hchanges, List.mem_singleton] at hc
    subst hc
    exact ⟨rfl, state, hs.payload, hemail, hcodes, hs.mine, hs.unconsumed, hs.early⟩

theorem wrong_moved (h : Counted f s) (hs : Open i identity token state s)
    (hattempts : state.failedAttempts < emailBindingMaxAttempts) :
    Moved f i name s { s with wrong := s.wrong + 1, doubt := true } := by
  refine .own ⟨h.kept, ?_, fun hnone => ?_, fun _ => ?_, h.limit, h.once⟩ (.inr hs.holder) (.inr hs.holder)
    (.of_flow le_rfl rfl) rfl
  · have hcount := h.count
    rw [hs.certain] at hcount
    change s.wrong + 1 + f.before = failed s + s.lost + 1
    change s.wrong + f.before = failed s + s.lost + 0 at hcount
    omega
  · cases hs.holder.symm.trans hnone
  · simpa [failed, hs.payload] using hattempts

theorem Ok.store {next : EmailBindingState} {answer : Answer} (hheld : s.holder = some i)
    (hpayload : s.flow.payload = some state) (hnext : next.failedAttempts = state.failedAttempts + s.doubt.toNat) :
    Ok f i name (exec (.update (.payload next)) fun _ => exec (.commit [.payload next]) fun _ => .done answer) s := by
  refine Ok.quiet (.update _) trivial fun t _ hst _ _ _ => Ok.access fun u _ htu hu fails _ v hact => ?_
  obtain ⟨hheld', hflow, -, hdoubt⟩ := (hst.trans htu).2 hheld
  cases fails with
  | some => cases hact
  | none =>
    cases hact
    exact ⟨commit_payload hu hheld' (hflow ▸ hpayload) (hdoubt ▸ hnext), fun _ _ _ => trivial⟩

theorem resend_ok {newCodeHash oldCodeHash : String} (hs : Clear i s) :
    Ok f i name (resendEmailBinding f.lib identity token newCodeHash oldCodeHash) s := by
  refine Ok.lock hs fun t state ht _ => Ok.access fun u _ hkeeps hu _ now v hact => ?_
  have hopen := ht.keeps hkeeps
  cases hact
  refine ⟨look_moved hu, ?_⟩
  rw [show u.look i = { u with looked := u.now } from if_pos hopen.holder]
  split
  · exact Ok.fail fun _ _ => hopen.certain
  split
  · exact Ok.fail fun _ _ => hopen.certain
  exact Ok.store hopen.holder hopen.payload (by simp [hopen.certain])

theorem complete_ok {email newCode oldCode : String} (hs : Clear i s) :
    Ok f i (.complete identity token email newCode oldCode)
      (completeEmailBinding f.lib identity token email newCode oldCode) s := by
  unfold completeEmailBinding
  split
  · exact Ok.fail fun _ => hs
  refine Ok.quiet (.lockNormalizedEmail _) trivial fun t _ ht _ _ _ => Ok.lock (hs.keeps ht) fun u state hu hattempts => ?_
  split
  · exact hu.fail
  rename_i hemail
  refine Ok.access fun v _ hkeeps hv _ _ w hact => ?_
  have hopen := hu.keeps hkeeps
  cases hact
  cases hcodes : f.lib.codesMatch state newCode oldCode with
  | false => exact ⟨wrong_moved hv hopen hattempts, Ok.store hopen.holder hopen.payload rfl⟩
  | true =>
    refine ⟨.refl hv, ?_⟩
    refine Ok.quiet (.ensureEmailAvailable _) trivial fun a _ ha _ _ _ => Ok.quiet (.update _) trivial fun b _ hb _ _ _ =>
      Ok.quiet (.update _) trivial fun c _ hc _ _ _ => Ok.access fun d _ hd hcounted fails _ e hact => ?_
    have hopen := (((hopen.keeps ha).keeps hb).keeps hc).keeps hd
    cases fails with
    | some => cases hact
    | none =>
      cases hact
      exact ⟨commit_email hcounted hopen (not_not.mp hemail) hcodes, fun _ _ _ => trivial⟩

/-! ## All calls together -/

abbrev Sys := System Store Name Op Ans Answer

abbrev Happening := Event Name (Option BindingError) Outside

/-- No statement fails. -/
def Works (_ : Sys) : Happening → Prop
  | .step _ fails => fails = none
  | _ => True

structure Running (f : Frame) (s : Sys) : Prop where
  fine : Fine (contract f) s
  holder : ∀ j, s.store.holder = some j → j < s.calls.length
  changes : ∀ c ∈ s.store.changes, ∃ name, s.names[c.call]? = some name ∧ Right f.lib c name

theorem rely_refl (i : Nat) (name : Name) (s : Store) : (contract f).rely i name s s :=
  ⟨.of_flow le_rfl rfl, .of_same rfl rfl rfl rfl⟩

theorem Running.step {s t : Sys} {e : Happening} (h : Running f s) (hok : f.calm → Works s e)
    (hstep : (machine f.lib).step s e = some t) : Running f t ∧ Later s.store t.store := by
  have hkeeps : (contract f).Keeps s e := by
    cases e with
    | begin => exact fun _ _ => ⟨trivial, trivial⟩
    | step => exact fun _ _ => hok
    | env => trivial
  rcases Machine.step_cases hstep with ⟨name, rfl, rfl⟩ | ⟨i, _, name, _, _, r, store, rfl, hcall, hact, rfl⟩ |
    ⟨e, store, rfl, henv, rfl⟩
  · have hclear : Clear s.calls.length s.store := fun hheld => absurd (h.holder _ hheld) (lt_irrefl _)
    refine ⟨⟨h.fine.begin hkeeps ?_, fun j hj => ?_, fun c hc => ?_⟩, .of_flow le_rfl rfl⟩
    · cases name with
      | complete => exact complete_ok hclear
      | resend => exact resend_ok hclear
    · simpa using (h.holder j hj).trans (Nat.lt_succ_self _)
    · obtain ⟨name', hname, hright⟩ := h.changes c hc
      refine ⟨name', ?_, hright⟩
      unfold System.names at hname ⊢
      rw [List.map_append, List.getElem?_append_left (List.getElem?_eq_some_iff.mp hname).1]
      exact hname
  · obtain ⟨hdoes, hfine⟩ := h.fine.access rely_refl hkeeps hcall hact
    have hi := (List.getElem?_eq_some_iff.mp hcall).1
    refine ⟨⟨hfine, fun j hj => ?_, fun c hc => ?_⟩, hdoes.later⟩
    · rw [List.length_set]
      by_cases hij : i = j
      · exact hij ▸ hi
      · exact h.holder j ((hdoes.keeps j hij).1 hj)
    · rw [System.names_set store hcall]
      rcases hdoes.changes c hc with hold | ⟨rfl, hright⟩
      · exact h.changes c hold
      · exact ⟨name, by simp [System.names, hcall], hright⟩
  · obtain ⟨-, hrely⟩ := (contract f).env henv h.fine.inv
    obtain rfl : s.store.env e = store := Option.some.inj henv
    refine ⟨⟨h.fine.change henv, ?_, ?_⟩, (hrely 0 (.resend ⟨0, "", 0, 0⟩ "" "" "")).1⟩
    · cases e <;> exact h.holder
    · cases e <;> exact h.changes

theorem Running.run {s t : Sys} {es : List Happening} (h : Running f s)
    (hsteps : Steps (machine f.lib).step (fun s e => f.calm → Works s e) s es t) :
    Running f t ∧ Later s.store t.store := by
  induction hsteps with
  | done => exact ⟨h, .of_flow le_rfl rfl⟩
  | more hok hstep _ ih =>
    obtain ⟨ht, hst⟩ := h.step hok hstep
    obtain ⟨hu, htu⟩ := ih ht
    exact ⟨hu, hst.trans htu⟩

theorem running_start (lib : Library) (calm : Prop) (now : Int) (flow : AuthFlow) (email : String) :
    Running ⟨lib, calm, failed (.start now flow email)⟩ (.start (.start now flow email)) := by
  refine ⟨.start ⟨fun _ => rfl, ?_, fun _ => rfl, fun hd => (Bool.false_ne_true hd).elim, le_max_right _ _,
    Nat.zero_le _, fun hne => absurd rfl hne⟩, fun j hj => (by cases hj), fun c hc => (by cases hc)⟩
  exact Nat.zero_add _

theorem Running.wrong_le {s : Sys} (h : Running f s) : s.store.wrong ≤ emailBindingMaxAttempts + s.store.lost := by
  have hcount := h.fine.inv.count
  have hlimit := h.fine.inv.limit
  cases hdoubt : s.store.doubt with
  | false =>
    rw [hdoubt, Bool.toNat_false] at hcount
    omega
  | true =>
    have hless := h.fine.inv.doubt hdoubt
    rw [hdoubt, Bool.toNat_true] at hcount
    omega

def plainCodes : Library := ⟨id, some, fun code hash => code = hash⟩

def laptop : AuthSessionIdentity := ⟨1, "laptop", 1, 1⟩

def openFlow : AuthFlow where
  token := "t"
  userId := 1
  sessionId := "laptop"
  payload := some ⟨some ⟨1, laptop, "account.binding.bind", "c"⟩, "old", "new", "1", "2", 0, 0⟩
  expiresAt := 600 * second
  consumedAt := none

def submissions : List Happening :=
  .begin (.complete laptop "t" "new" "1" "1") :: List.replicate 9 (.step 0 none) ++
    .begin (.complete laptop "t" "new" "1" "2") :: List.replicate 11 (.step 1 none)

end NewApi.Auth.EmailBinding
