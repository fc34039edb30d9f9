import NewApi.Channels.Disabled
import NewApi.Code.ChannelSelect

/-!
# Retries over the auto groups

The counter goes back to zero with every move to another group, so the measure has all the levels that are left.
-/

namespace NewApi.Channels

open Code.Channels

/-! ## The priority for a level -/

variable {i j n : Nat} {retryTimes : Int} {request : Request} {choice preset : Choice} {s : RelayState}
  {turns : List Turn}

theorem sortedUniquePriorities_antitone {priorities : List Int} {p q : Int} (hij : i ≤ j)
    (hp : (sortedUniquePriorities priorities)[i]? = some p) (hq : (sortedUniquePriorities priorities)[j]? = some q) :
    q ≤ p := by
  have sorted : (sortedUniquePriorities priorities).Pairwise (· ≥ ·) := List.pairwise_insertionSort _ _
  obtain ⟨hi, rfl⟩ := List.getElem?_eq_some_iff.mp hp
  obtain ⟨hj, rfl⟩ := List.getElem?_eq_some_iff.mp hq
  rcases Nat.lt_or_eq_of_le hij with hlt | rfl
  · exact List.pairwise_iff_getElem.mp sorted i j hi hj hlt
  · exact le_refl _

theorem targetPriority_antitone {priorities : List Int} {level level' : Nat} {p q : Int} (h : level ≤ level')
    (hp : targetPriority priorities level = some p) (hq : targetPriority priorities level' = some q) : q ≤ p := by
  refine sortedUniquePriorities_antitone ?_ hp hq
  split <;> split <;> omega

def priorities (request : Request) (group : String) : Source → List Int
  | .memory cache _ => (offered cache request group).map Channel.getPriority
  | .database store _ => (store.candidates request group).map Ability.getPriority
  | .unreadable _ => []

def priority (request : Request) (choice : Choice) : Option Int :=
  targetPriority (priorities request choice.selectGroup choice.source) choice.priorityRetry

/-! ## One search -/

structure Landed (retryTimes : Int) (param : RetryParam) (choice : Choice) (j : Nat) (found : Selection) : Prop where
  choice_eq : found.choice = some choice
  index : choice.groupIndex = some j
  tokenGroup : found.param.tokenGroup = param.tokenGroup
  next : found.autoGroupIndex = some j ∧ found.param.retry = choice.priorityRetry ∧
      found.param.resetNextTry = param.resetNextTry ∨
    found.autoGroupIndex = some (j + 1) ∧ retryTimes ≤ choice.priorityRetry ∧ found.param.retry = 0 ∧
      found.param.resetNextTry = true

theorem searchGroups_landed {cross : Bool} {source : Source}
    {start : Nat} {groups : List String} {param : RetryParam} {index : Option Nat}
    (hi : start ≤ i) (hreset : start < i → param.retry = 0)
    (h : (searchGroups retryTimes cross request source start i groups param index).choice = some choice) :
    ∃ j, i ≤ j ∧ j < i + groups.length ∧ choice.priorityRetry = (if start < j then 0 else param.retry) ∧
      Landed retryTimes param choice j (searchGroups retryTimes cross request source start i groups param index) := by
  induction groups generalizing i param index with
  | nil => cases h
  | cons group groups ih =>
    rw [searchGroups] at h ⊢
    cases answer : (source.getRandomSatisfiedChannel request group (if start < i then 0 else param.retry)).1 with
    | none =>
      rw [answer] at h
      obtain ⟨j, hj, hlt, hlevel, landed⟩ := ih (by omega) (by simp) h
      have : start < j := by omega
      refine ⟨j, by omega, by simp only [List.length_cons]; omega, by simp [hlevel, this], ?_⟩
      exact ⟨landed.choice_eq, landed.index, landed.tokenGroup, landed.next⟩
    | some =>
      rw [answer] at h
      -- at the first group of the search the level is the counter, and after it the counter is zero
      have hlevel : param.retry = if start < i then 0 else param.retry := by
        split
        · exact hreset ‹_›
        · rfl
      refine ⟨i, le_refl i, by simp, ?_⟩
      generalize (if start < i then 0 else param.retry) = level at h hlevel ⊢
      dsimp only at h ⊢
      by_cases hcross : cross = true ∧ retryTimes ≤ level
      · rw [if_pos hcross] at h ⊢
        obtain rfl := Option.some.inj h
        exact ⟨rfl, rfl, rfl, rfl, .inr ⟨rfl, hcross.2, rfl, rfl⟩⟩
      · rw [if_neg hcross] at h ⊢
        obtain rfl := Option.some.inj h
        exact ⟨rfl, rfl, rfl, rfl, .inl ⟨rfl, hlevel, rfl⟩⟩

/-! ## One pass of the loop -/

def index (s : RelayState) : Nat := s.context.autoGroupIndex.getD 0

structure Begins (n : Nat) (s : RelayState) : Prop where
  auto : s.param.tokenGroup = "auto"
  noReset : s.param.resetNextTry = false
  groups : s.context.autoGroups.length = n

theorem Begins.again (begins : Begins n s) (initChannelMeta : Bool) : Begins n (s.next initChannelMeta) :=
  ⟨by simp [RelayState.next, RetryParam.increaseRetry, begins.noReset, begins.auto],
    by simp [RelayState.next, RetryParam.increaseRetry, begins.noReset], begins.groups⟩

structure Tried (retryTimes : Int) (n : Nat) (s : RelayState) (choice : Choice) (j : Nat) (t : RelayState) : Prop where
  from_start : index s ≤ j
  in_groups : j < n
  group : choice.groupIndex = some j
  level : choice.priorityRetry = if index s < j then 0 else s.param.retry
  begins : Begins n t
  next : index t = j ∧ t.param.retry = choice.priorityRetry + 1 ∨
    index t = j + 1 ∧ t.param.retry = 0 ∧ retryTimes ≤ choice.priorityRetry

theorem getChannel_tried {s' : RelayState} {turn : Turn} (begins : Begins n s) (hmeta : s.channelMeta = true)
    (h : getChannel retryTimes request preset s turn = some (choice, s')) :
    ∃ j, Tried retryTimes n s choice j (s'.next turn.initChannelMeta) ∧ s'.channelMeta = true := by
  simp only [getChannel, hmeta, if_true, cacheGetRandomSatisfiedChannel, begins.auto] at h
  by_cases hnil : s.context.autoGroups = []
  · simp [hnil] at h
  rw [if_neg hnil] at h
  obtain ⟨_, hfound, h⟩ := Option.bind_eq_some_iff.mp h
  split at h
  · obtain ⟨rfl, rfl⟩ := Prod.mk.inj (Option.some.inj h)
    obtain ⟨j, hj, hlt, hlevel, landed⟩ := searchGroups_landed (le_refl _) (fun h => absurd h (lt_irrefl _)) hfound
    rw [List.length_drop, begins.groups] at hlt
    refine ⟨j, ⟨hj, by omega, landed.index, hlevel, ?_, ?_⟩, rfl⟩
    · refine ⟨?_, ?_, begins.groups⟩
      · simp only [RelayState.next, RetryParam.increaseRetry]
        split <;> exact landed.tokenGroup.trans begins.auto
      · simp only [RelayState.next, RetryParam.increaseRetry]
        split
        · rfl
        · exact Bool.not_eq_true _ ▸ ‹_›
    · rcases landed.next with ⟨hidx, hretry, hreset⟩ | ⟨hidx, hover, hretry, hreset⟩
      · rw [begins.noReset] at hreset
        left
        simp [index, RelayState.next, RetryParam.increaseRetry, hidx, hretry, hreset]
      · right
        simp [index, RelayState.next, RetryParam.increaseRetry, hidx, hretry, hreset, hover]
  · cases h

/-! ## The number of attempts -/

def remaining (retryTimes : Int) (n i retry : Nat) : Nat :=
  (retryTimes + 1 - retry).toNat + (retryTimes + 1).toNat * (n - i - 1)

theorem remaining_same_group {retry : Nat} (h : (retry : Int) ≤ retryTimes) :
    remaining retryTimes n i (retry + 1) + 1 = remaining retryTimes n i retry := by
  unfold remaining
  omega

theorem remaining_later_group {retry : Nat} (hij : i < j) (hj : j < n)
    (h : (retry : Int) ≤ retryTimes) : remaining retryTimes n j 0 < remaining retryTimes n i retry := by
  unfold remaining
  have levels : (retryTimes + 1).toNat * (n - j - 1) + (retryTimes + 1).toNat ≤
      (retryTimes + 1).toNat * (n - i - 1) := by
    rw [← Nat.mul_succ]
    exact Nat.mul_le_mul_left _ (by omega)
  omega

theorem tried_remaining {t : RelayState}
    (tried : Tried retryTimes n s choice j t) (h : (s.param.retry : Int) ≤ retryTimes) (ht : index t < n) :
    remaining retryTimes n (index t) t.param.retry < remaining retryTimes n (index s) s.param.retry := by
  have hlevel := tried.level
  rcases tried.next with ⟨hidx, hretry⟩ | ⟨hidx, hretry, hover⟩
  · rw [hidx, hretry]
    split at hlevel
    · have same : remaining retryTimes n j (0 + 1) + 1 = remaining retryTimes n j 0 := remaining_same_group (by omega)
      have later := remaining_later_group ‹_› tried.in_groups h
      rw [hlevel]
      omega
    · have hj : index s = j := Nat.le_antisymm tried.from_start (Nat.not_lt.mp ‹_›)
      have := remaining_same_group (n := n) (i := index s) h
      rw [hlevel, ← hj]
      omega
  · rw [hidx, hretry]
    exact remaining_later_group (by have := tried.from_start; omega) (hidx ▸ ht) h

theorem relayLoop_length_meta (begins : Begins n s) (hmeta : s.channelMeta = true) :
    (relayLoop retryTimes request preset s turns).length ≤
      if index s < n then remaining retryTimes n (index s) s.param.retry else 0 := by
  induction turns generalizing s with
  | nil => simp [relayLoop]
  | cons turn turns ih =>
    rw [relayLoop]
    split
    · simp
    rename_i hretry
    cases hget : getChannel retryTimes request preset s turn with
    | none => simp
    | some found =>
      obtain ⟨_, _⟩ := found
      obtain ⟨j, tried, hmeta'⟩ := getChannel_tried begins hmeta hget
      have hs : index s < n := tried.from_start.trans_lt tried.in_groups
      have hleft := ih tried.begins (by simp [RelayState.next, hmeta'])
      have hpos : 0 < remaining retryTimes n (index s) s.param.retry := by
        unfold remaining
        omega
      rw [if_pos hs]
      dsimp only
      split
      · rw [List.length_cons]
        split
        · split at hleft
          · have := tried_remaining tried (Int.not_lt.mp hretry) ‹_›
            omega
          · omega
        · exact hpos
      · simp

theorem relayLoop_length (begins : Begins n s) :
    (relayLoop retryTimes request preset s turns).length ≤ remaining retryTimes n (index s) s.param.retry := by
  induction turns generalizing s with
  | nil => simp [relayLoop]
  | cons turn turns ih =>
    by_cases hmeta : s.channelMeta = true
    · refine (relayLoop_length_meta begins hmeta).trans ?_
      split
      · exact le_refl _
      · exact Nat.zero_le _
    · rw [relayLoop]
      split
      · simp
      rename_i hretry
      have hget : getChannel retryTimes request preset s turn = some (preset, s) := by simp [getChannel, hmeta]
      rw [hget]
      dsimp only
      have hnext : (s.next turn.initChannelMeta).param.retry = s.param.retry + 1 := by
        simp [RelayState.next, RetryParam.increaseRetry, begins.noReset]
      have hleft := ih (begins.again turn.initChannelMeta)
      have := remaining_same_group (n := n) (i := index s) (Int.not_lt.mp hretry)
      rw [hnext, show index (s.next turn.initChannelMeta) = index s from rfl] at hleft
      split
      · rw [List.length_cons]
        split
        · omega
        · rw [List.length_nil]
          omega
      · simp

/-! ## The order of the attempts -/

/-- Never an earlier group, and in one group never an earlier level or, on the same offer, a higher priority. -/
structure Follows (request : Request) (a b : Choice) : Prop where
  index : ∃ i j, a.groupIndex = some i ∧ b.groupIndex = some j ∧ i ≤ j
  level : a.groupIndex = b.groupIndex → a.priorityRetry ≤ b.priorityRetry
  priority : a.groupIndex = b.groupIndex →
    priorities request a.selectGroup a.source = priorities request b.selectGroup b.source →
    ∀ p ∈ priority request a, ∀ q ∈ priority request b, q ≤ p

def AtLeast (i level : Nat) (choice : Choice) : Prop :=
  ∃ j, choice.groupIndex = some j ∧ (i < j ∨ i = j ∧ level ≤ choice.priorityRetry)

theorem AtLeast.mono {level i' level' : Nat} (h : AtLeast i' level' choice)
    (hle : i < i' ∨ i = i' ∧ level ≤ level') : AtLeast i level choice := by
  obtain ⟨j, hj, hplace⟩ := h
  exact ⟨j, hj, by omega⟩

theorem follows_of_atLeast {a b : Choice} (ha : a.groupIndex = some i)
    (hb : AtLeast i a.priorityRetry b) : Follows request a b := by
  obtain ⟨j, hj, hplace⟩ := hb
  have level : a.groupIndex = b.groupIndex → a.priorityRetry ≤ b.priorityRetry := by
    intro same
    rw [ha, hj] at same
    have := Option.some.inj same
    omega
  refine ⟨⟨i, j, ha, hj, by omega⟩, level, ?_⟩
  intro same offer p hp q hq
  rw [Option.mem_def, Channels.priority, ← offer] at hq
  exact targetPriority_antitone (level same) hp hq

theorem relayLoop_atLeast_meta (begins : Begins n s) (hmeta : s.channelMeta = true) :
    (relayLoop retryTimes request preset s turns).Pairwise (Follows request) ∧
      ∀ choice ∈ relayLoop retryTimes request preset s turns, AtLeast (index s) s.param.retry choice := by
  induction turns generalizing s with
  | nil => simp [relayLoop]
  | cons turn turns ih =>
    rw [relayLoop]
    split
    · simp
    cases hget : getChannel retryTimes request preset s turn with
    | none => simp
    | some found =>
      obtain ⟨choice, s'⟩ := found
      obtain ⟨j, tried, hmeta'⟩ := getChannel_tried begins hmeta hget
      obtain ⟨pairwise, atLeast⟩ := ih tried.begins (by simp [RelayState.next, hmeta'])
      have here : AtLeast (index s) s.param.retry choice := by
        refine ⟨j, tried.group, ?_⟩
        have hstart := tried.from_start
        have hlevel := tried.level
        split at hlevel <;> omega
      have later : ∀ b ∈ relayLoop retryTimes request preset (s'.next turn.initChannelMeta) turns,
          AtLeast j choice.priorityRetry b := by
        intro b hb
        refine (atLeast b hb).mono ?_
        have := tried.next
        omega
      dsimp only
      split
      · split
        · refine ⟨List.pairwise_cons.mpr ⟨fun b hb => follows_of_atLeast tried.group (later b hb), pairwise⟩, ?_⟩
          refine List.forall_mem_cons.mpr ⟨here, fun b hb => (later b hb).mono ?_⟩
          obtain ⟨_, hj', hplace⟩ := here
          obtain rfl := Option.some.inj (hj'.symm.trans tried.group)
          exact hplace
        · exact ⟨List.pairwise_singleton _ _, by simpa using here⟩
      · simp

theorem relayLoop_atLeast (begins : Begins n s) (hpreset : preset.groupIndex = some i)
    (hlevel : preset.priorityRetry = 0) (hi : i ≤ index s) :
    (relayLoop retryTimes request preset s turns).Pairwise (Follows request) ∧
      ∀ choice ∈ relayLoop retryTimes request preset s turns, AtLeast i 0 choice := by
  induction turns generalizing s with
  | nil => simp [relayLoop]
  | cons turn turns ih =>
    by_cases hmeta : s.channelMeta = true
    · obtain ⟨pairwise, atLeast⟩ := relayLoop_atLeast_meta begins hmeta
      exact ⟨pairwise, fun choice hchoice => (atLeast choice hchoice).mono (by omega)⟩
    rw [relayLoop]
    split
    · simp
    have hget : getChannel retryTimes request preset s turn = some (preset, s) := by simp [getChannel, hmeta]
    rw [hget]
    dsimp only
    have here : AtLeast i 0 preset := ⟨i, hpreset, .inr ⟨rfl, Nat.zero_le _⟩⟩
    obtain ⟨pairwise, atLeast⟩ := ih (begins.again turn.initChannelMeta) hi
    split
    · split
      · refine ⟨List.pairwise_cons.mpr ⟨fun b hb => ?_, pairwise⟩, List.forall_mem_cons.mpr ⟨here, atLeast⟩⟩
        exact follows_of_atLeast hpreset (hlevel ▸ atLeast b hb)
      · exact ⟨List.pairwise_singleton _ _, by simpa using here⟩
    · simp

/-! ## Whole requests -/

theorem remaining_le (hn : 0 < n) : remaining retryTimes n i 0 ≤ (retryTimes + 1).toNat * n := by
  unfold remaining
  have levels : (retryTimes + 1).toNat * (n - i - 1) + (retryTimes + 1).toNat ≤ (retryTimes + 1).toNat * n := by
    rw [← Nat.mul_succ]
    exact Nat.mul_le_mul_left _ (by omega)
  omega

theorem affinity_group {first : FirstChoice} {context : Context}
    (h : first.affinity context "auto" = some choice) : 0 < context.autoGroups.length := by
  obtain ⟨_, -, h⟩ := Option.bind_eq_some_iff.mp h
  rw [if_pos rfl] at h
  obtain ⟨i, hi, -⟩ := Option.bind_eq_some_iff.mp h
  exact (Nat.zero_le i).trans_lt (List.findIdx?_eq_some_iff_getElem.mp hi).1

theorem first_choice {context : Context} {first : FirstChoice} {autoGroupIndex : Option Nat} (hpin : first.pin = none)
    (haffinity : first.affinity context "auto" = none)
    (h : selectChannelForRequest retryTimes request context "auto" first = some (preset, autoGroupIndex)) :
    ∃ i < context.autoGroups.length, preset.groupIndex = some i ∧ preset.priorityRetry = 0 ∧
      i ≤ autoGroupIndex.getD 0 := by
  simp only [selectChannelForRequest, hpin, haffinity, cacheGetRandomSatisfiedChannel, if_true] at h
  split at h
  · cases h
  by_cases hnil : context.autoGroups = []
  · simp [hnil] at h
  rw [if_neg hnil] at h
  obtain ⟨_, hchoice, h⟩ := Option.bind_eq_some_iff.mp h
  split at h
  · obtain ⟨rfl, rfl⟩ := Prod.mk.inj (Option.some.inj h)
    obtain ⟨j, hj, hlt, hlevel, landed⟩ := searchGroups_landed (le_refl _) (fun _ => rfl) hchoice
    rw [List.length_drop] at hlt
    refine ⟨j, by omega, landed.index, by simpa using hlevel, ?_⟩
    rcases landed.next with ⟨hidx, -⟩ | ⟨hidx, -⟩
    · rw [hidx, Option.getD_some]
    · rw [hidx, Option.getD_some]
      omega
  · cases h

theorem retries_bounded {retryTimes : Int} {request : Request} {context : Context} {first : FirstChoice}
    (hpin : first.pin = none) (turns : List Turn) :
    (relay retryTimes request context "auto" first turns).length ≤ (retryTimes + 1).toNat * context.autoGroups.length ∧
      (first.affinity context "auto" = none →
        (relay retryTimes request context "auto" first turns).Pairwise (Follows request)) := by
  unfold relay
  cases hselect : selectChannelForRequest retryTimes request context "auto" first with
  | none => simp
  | some selected =>
    obtain ⟨_, autoGroupIndex⟩ := selected
    have begins : Begins context.autoGroups.length
        ⟨{ context with autoGroupIndex }, ⟨"auto", 0, false⟩, false⟩ := ⟨rfl, rfl, rfl⟩
    constructor
    · have hn : 0 < context.autoGroups.length := by
        cases haffinity : first.affinity context "auto" with
        | some => exact affinity_group haffinity
        | none =>
          obtain ⟨i, hi, -⟩ := first_choice hpin haffinity hselect
          exact (Nat.zero_le i).trans_lt hi
      exact (relayLoop_length begins).trans (remaining_le hn)
    · intro haffinity
      obtain ⟨i, -, hindex, hlevel, hi⟩ := first_choice hpin haffinity hselect
      exact (relayLoop_atLeast begins hindex hlevel hi).1

/-! ## Two groups, and a group that loses a level -/

def cacheOf (channels : List (Int × List String × Int)) : ChannelCache :=
  ⟨fun group model => if model = "m" then (channels.filter fun c => group ∈ c.2.1).map Prod.fst else [],
    fun id => (channels.find? fun c => c.1 = id).map fun c => { channelFor c.1 "m" with priority := some c.2.2 }⟩

def firstFrom (channels : List (Int × List String × Int)) : FirstChoice :=
  ⟨none, false, none, false, fun _ _ => false, .memory (cacheOf channels) fun _ => 0⟩

def failing (channels : List (Int × List String × Int)) : Turn :=
  ⟨.memory (cacheOf channels) fun _ => 0, true, true, true, fun _ => true⟩

def tried (choices : List Choice) : List (Option Nat × Int) :=
  choices.map fun choice => (choice.groupIndex, choice.channel.getPriority)

/-- All levels of both groups are tried, one after the other. -/
theorem retries_bounded_two_groups :
    let channels := [(1, ["a"], 10), (2, ["a"], 5), (3, ["b"], 7)]
    let choices := relay 1 (requestFor "m") ⟨["a", "b"], true, none⟩ "auto" (firstFrom channels)
      (List.replicate 9 (failing channels))
    tried choices = [(some 0, 10), (some 0, 5), (some 1, 7), (some 1, 7)] ∧ choices.length ≤ 4 ∧
      choices.Pairwise (Follows (requestFor "m")) := by
  refine ⟨by decide +kernel, (retries_bounded rfl _).1, (retries_bounded rfl _).2 rfl⟩

/-- To an earlier group; and to the higher level again where the lower one is gone. -/
theorem retries_move_back :
    (let preferred := channelFor 3 "m"
     let channels := [(1, ["a"], 10), (3, ["b"], 7)]
     tried (relay 1 (requestFor "m") ⟨["a", "b"], true, none⟩ "auto"
       { firstFrom channels with found := true, preferred, isChannelEnabledForGroupModel := fun g _ => g = "b" }
       (List.replicate 2 (failing channels))) = [(some 1, 0), (some 0, 10)]) ∧
    (let both := [(1, ["a"], 10), (2, ["a"], 5)]
     tried (relay 2 (requestFor "m") ⟨["a"], false, none⟩ "auto" (firstFrom both)
       [failing both, failing both, failing [(1, ["a"], 10)]]) = [(some 0, 10), (some 0, 5), (some 0, 10)]) := by
  decide +kernel

end NewApi.Channels
