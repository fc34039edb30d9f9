import NewApi.Code.Task

/-!
# Every task gets its own answer

Where the ids of a platform differ, since the maps of a pass are keyed by the upstream id alone.
-/

namespace NewApi.Tasks.Dispatch

open Table Code.Tasks

def DistinctIds (tasks : List Task) : Prop :=
  ∀ (a b : Nat) (x y : Task), tasks[a]? = some x → tasks[b]? = some y → x.platform = y.platform →
    x.getUpstreamTaskID = y.getUpstreamTaskID → x.getUpstreamTaskID ≠ "" → a = b

/-- A batch response has items for the ids that it was asked for only. -/
def AnswersAsked (w : Providers) : Prop :=
  ∀ platform channelId ids statusCode answer,
    (w.batch platform channelId ids).2 = .response statusCode (some answer) → ∀ entry ∈ answer.items, entry.1 ∈ ids

def Own (tasks : List Task) (call : Call) : Prop :=
  ∃ task, tasks[call.address]? = some task ∧ task.platform = call.platform ∧ task.channelId = call.channelId ∧
    task.getUpstreamTaskID = call.upstreamID ∧ call.upstreamID ≠ ""

def askedWith (tasks : List Task) (task : Task) : List String :=
  ((tasks.filter fun other => other.platform = task.platform ∧ other.getUpstreamTaskID ≠ "").filter
    fun other => other.channelId = task.channelId).map Task.getUpstreamTaskID

/-- Stated without the maps. -/
def ownOutcome (w : Providers) (tasks : List Task) (task : Task) : Option Outcome :=
  if task.platform = platformMidjourney ∨ task.getUpstreamTaskID = "" then none
  else if w.hasChannel task.channelId = false then some .missingChannel
  else
    match w.adaptor task.platform with
    | none => none
    | some .single =>
      let answer := w.single task.platform task.channelId task.getUpstreamTaskID
      some (.single answer.1 answer.2)
    | some .batch =>
      let answer := w.batch task.platform task.channelId (askedWith tasks task)
      match answer.2 with
      | .transportError => some (.batchFailure answer.1 false)
      | .response statusCode items =>
        match classifyPollHTTP statusCode with
        | .notFound => some (.batchFailure answer.1 true)
        | .auth | .transient => some (.batchFailure answer.1 false)
        | .ok | .otherClient =>
          match items with
          | none => some (.batchFailure answer.1 false)
          | some batch =>
            (batch.items.find? fun entry => entry.1 = task.getUpstreamTaskID).map fun entry =>
              .batchItem answer.1 statusCode entry.2

/-! ## Addresses -/

theorem mem_withAddress (tasks : List Task) (a : Nat) (task : Task) :
    (a, task) ∈ withAddress tasks ↔ tasks[a]? = some task := by
  unfold withAddress
  rw [List.mem_map]
  constructor
  · rintro ⟨⟨_, b⟩, hmem, heq⟩
    obtain ⟨rfl, rfl⟩ := Prod.mk.inj heq
    exact List.mem_zipIdx_iff_getElem?.mp hmem
  · intro h
    exact ⟨(task, a), List.mem_zipIdx_iff_getElem?.mpr h, rfl⟩

theorem addresses_nodup (tasks : List Task) : ((withAddress tasks).map Prod.fst).Nodup := by
  have hfst : (withAddress tasks).map Prod.fst = List.range' 0 tasks.length := by
    rw [withAddress, List.map_map, ← List.zipIdx_map_snd 0 tasks]
    rfl
  rw [hfst]
  exact List.nodup_range'

def named (tasks : List Task) (platform : String) : List (Nat × Task) :=
  ((withAddress tasks).filter fun t => t.2.platform = platform).filter fun t => t.2.getUpstreamTaskID ≠ ""

theorem mem_named {tasks : List Task} {platform : String} {a : Nat} {task : Task} : (a, task) ∈ named tasks platform ↔
      tasks[a]? = some task ∧ task.platform = platform ∧ task.getUpstreamTaskID ≠ "" := by
  unfold named
  simp only [List.mem_filter, mem_withAddress, decide_eq_true_eq, and_assoc]

theorem flatMap_ite_eq {κ β : Type} [DecidableEq κ] {keys : List κ} (hnodup : keys.Nodup) (key : κ) (part : List β) :
    keys.flatMap (fun k => if k = key then part else []) = if key ∈ keys then part else [] := by
  induction keys with
  | nil => simp
  | cons k rest ih =>
    rw [List.nodup_cons] at hnodup
    rw [List.flatMap_cons, ih hnodup.2]
    by_cases hk : k = key
    · subst hk
      simp [hnodup.1]
    · have hne : key ≠ k := fun h => hk h.symm
      simp [hk, hne]

def OwnAt (tasks : List Task) (platform : String) (channelId : Int) (call : Call) : Prop :=
  Own tasks call ∧ call.platform = platform ∧ call.channelId = channelId

/-! ## The maps of a pass -/

section Maps

variable {tasks : List Task} {platform : String} {a : Nat} {task : Task} {channelId : Int}

theorem platformPass_taskM :
    (platformPass tasks platform).taskM = (named tasks platform).map fun t => (t.2.getUpstreamTaskID, t.1) := rfl

theorem taskIds_eq : (platformPass tasks platform).taskIds channelId =
      ((named tasks platform).filter fun t => t.2.channelId = channelId).map fun t => t.2.getUpstreamTaskID := by
  unfold Pass.taskIds
  have hmap : (platformPass tasks platform).taskChannelM =
      (named tasks platform).map fun t => (t.2.channelId, t.2.getUpstreamTaskID) := rfl
  rw [hmap, List.filter_map, List.map_map]
  rfl

/-- Its channel may be another. -/
theorem task_some {upstreamID : String} (h : (platformPass tasks platform).task upstreamID = some a) :
    ∃ task, (a, task) ∈ named tasks platform ∧ task.getUpstreamTaskID = upstreamID := by
  obtain ⟨_, hfind, rfl⟩ := Option.map_eq_some_iff.mp h
  have hid := List.find?_some hfind
  have hmem := List.mem_reverse.mp (List.mem_of_find?_eq_some hfind)
  rw [platformPass_taskM, List.mem_map] at hmem
  obtain ⟨⟨b, task⟩, hnamed, rfl⟩ := hmem
  exact ⟨task, hnamed, by simpa using hid⟩

theorem task_isSome (hnamed : (a, task) ∈ named tasks platform) :
    ((platformPass tasks platform).task task.getUpstreamTaskID).isSome := by
  unfold Pass.task
  rw [Option.isSome_map, List.find?_isSome]
  refine ⟨(task.getUpstreamTaskID, a), ?_, by simp⟩
  rw [List.mem_reverse, platformPass_taskM]
  exact List.mem_map.mpr ⟨(a, task), hnamed, rfl⟩

theorem taskIds_askedWith (hplatform : task.platform = platform) (hchannel : task.channelId = channelId) :
    (platformPass tasks platform).taskIds channelId = askedWith tasks task := by
  have hsnd : (withAddress tasks).map Prod.snd = tasks := by
    rw [withAddress, List.map_map]
    exact List.zipIdx_map_fst 0 tasks
  have hnamed : named tasks platform =
      (withAddress tasks).filter
        ((fun other : Task => other.platform = task.platform ∧ other.getUpstreamTaskID ≠ "") ∘ Prod.snd) := by
    rw [named, List.filter_filter]
    apply List.filter_congr
    intro t _
    simp [hplatform, Bool.and_comm]
  rw [taskIds_eq, askedWith, ← hsnd, List.filter_map, List.filter_map, List.map_map, hsnd, hnamed, hchannel]
  rfl

section Distinct

variable (hdistinct : DistinctIds tasks)

include hdistinct

theorem DistinctIds.eq {b : Nat} {other : Task}
    (hx : (a, task) ∈ named tasks platform) (hy : (b, other) ∈ named tasks platform)
    (hid : task.getUpstreamTaskID = other.getUpstreamTaskID) : a = b ∧ task = other := by
  obtain ⟨hga, hpa, hne⟩ := mem_named.mp hx
  obtain ⟨hgb, hpb, -⟩ := mem_named.mp hy
  have hab := hdistinct a b task other hga hgb (hpa.trans hpb.symm) hid hne
  subst hab
  exact ⟨rfl, Option.some.inj (hga.symm.trans hgb)⟩

theorem task_eq (hnamed : (a, task) ∈ named tasks platform) :
    (platformPass tasks platform).task task.getUpstreamTaskID = some a := by
  obtain ⟨b, hb⟩ := Option.isSome_iff_exists.mp (task_isSome hnamed)
  obtain ⟨_, hother, hid⟩ := task_some hb
  rw [hb, (hdistinct.eq hnamed hother hid.symm).1]

theorem calls_eq : (platformPass tasks platform).calls platform channelId =
      ((named tasks platform).filter fun t => t.2.channelId = channelId).map fun t =>
        ⟨platform, channelId, t.2.getUpstreamTaskID, t.1⟩ := by
  unfold Pass.calls
  rw [taskIds_eq, List.filterMap_map, ← List.filterMap_eq_map]
  apply List.filterMap_congr
  rintro ⟨b, other⟩ hmem
  have hnamed := (List.mem_filter.mp hmem).1
  show Pass.call _ _ _ other.getUpstreamTaskID = _
  rw [Pass.call, task_eq hdistinct hnamed]
  rfl

theorem own_of_call {upstreamID : String} {call : Call}
    (hasked : upstreamID ∈ (platformPass tasks platform).taskIds channelId)
    (h : (platformPass tasks platform).call platform channelId upstreamID = some call) :
    OwnAt tasks platform channelId call := by
  rw [taskIds_eq, List.mem_map] at hasked
  obtain ⟨⟨b, other⟩, hmem, rfl⟩ := hasked
  obtain ⟨hnamed, hchannel⟩ := List.mem_filter.mp hmem
  rw [Pass.call, task_eq hdistinct hnamed] at h
  obtain rfl := Option.some.inj h
  obtain ⟨hget, hplatform, hne⟩ := mem_named.mp hnamed
  exact ⟨⟨other, hget, hplatform, by simpa using hchannel, rfl, hne⟩, rfl, rfl⟩

theorem own_of_mem_calls {call : Call} (h : call ∈ (platformPass tasks platform).calls platform channelId) :
    OwnAt tasks platform channelId call := by
  obtain ⟨_, hasked, hcall⟩ := List.mem_filterMap.mp h
  exact own_of_call hdistinct hasked hcall

theorem calls_at (hnamed : (a, task) ∈ named tasks platform) (hchannel : task.channelId = channelId) :
    ((platformPass tasks platform).calls platform channelId).filter (fun call => call.address = a) =
      [⟨platform, channelId, task.getUpstreamTaskID, a⟩] := by
  have hnodup : ((named tasks platform).map Prod.fst).Nodup :=
    (addresses_nodup tasks).sublist ((List.filter_sublist.trans List.filter_sublist).map Prod.fst)
  have hone : (named tasks platform).filter (fun t => t.1 = a) = [(a, task)] := filter_key_eq hnodup hnamed
  rw [calls_eq hdistinct, List.filter_map, List.filter_filter]
  have hswap : (named tasks platform).filter
        (fun t => (((fun call : Call => decide (call.address = a)) ∘ fun t : Nat × Task =>
          (⟨platform, channelId, t.2.getUpstreamTaskID, t.1⟩ : Call)) t) && decide (t.2.channelId = channelId)) =
      ((named tasks platform).filter fun t => t.1 = a).filter fun t => t.2.channelId = channelId := by
    rw [List.filter_filter]
    exact List.filter_congr fun t _ => Bool.and_comm _ _
  rw [hswap, hone]
  simp [hchannel]

end Distinct

end Maps

/-! ## The looks of a channel -/

section Channel

variable {w : Providers} {tasks : List Task} {platform : String} {channelId : Int} (hdistinct : DistinctIds tasks)

include hdistinct

theorem own_of_mem_itemLooks {now statusCode : Int} {items : List (String × BatchTaskResult)}
    (hasked : ∀ entry ∈ items, entry.1 ∈ (platformPass tasks platform).taskIds channelId) {look : Look}
    (h : look ∈ (platformPass tasks platform).itemLooks platform channelId now statusCode items) :
    OwnAt tasks platform channelId look.call := by
  obtain ⟨entry, hentry, hlook⟩ := List.mem_filterMap.mp h
  obtain ⟨_, hcall, rfl⟩ := Option.map_eq_some_iff.mp hlook
  exact own_of_call hdistinct (hasked entry hentry) hcall

theorem own_of_mem_map {outcome : Call → Outcome} {look : Look}
    (h : look ∈ ((platformPass tasks platform).calls platform channelId).map fun call => ⟨call, outcome call⟩) :
    OwnAt tasks platform channelId look.call := by
  obtain ⟨_, hcall, rfl⟩ := List.mem_map.mp h
  exact own_of_mem_calls hdistinct hcall

theorem own_of_mem_updateTasks (hasked : AnswersAsked w) {look : Look}
    (h : look ∈ updateTasks w platform (platformPass tasks platform) channelId) :
    OwnAt tasks platform channelId look.call := by
  unfold updateTasks updateBatchTasks updateVideoTasks at h
  -- Only the items of a batch are chosen by the provider; the other branches go through the calls.
  split_ifs at h with hmode hchannel hchannel hadaptor
  · exact own_of_mem_map hdistinct h
  · split at h
    · exact own_of_mem_map hdistinct h
    next statusCode items hanswer =>
      split at h
      · exact own_of_mem_map hdistinct h
      · exact own_of_mem_map hdistinct h
      · exact own_of_mem_map hdistinct h
      all_goals
        split at h
        · exact own_of_mem_map hdistinct h
        next answer => exact own_of_mem_itemLooks hdistinct (hasked _ _ _ _ _ hanswer) h
  · exact own_of_mem_map hdistinct h
  · simp at h
  · exact own_of_mem_map hdistinct h

variable {a : Nat} {task : Task}

theorem map_at (hnamed : (a, task) ∈ named tasks platform)
    (hchannel : task.channelId = channelId) (outcome : Call → Outcome) :
    ((((platformPass tasks platform).calls platform channelId).map fun call => (⟨call, outcome call⟩ : Look)).filter
      fun look => look.call.address = a).map Look.outcome =
        [outcome ⟨platform, channelId, task.getUpstreamTaskID, a⟩] := by
  rw [List.filter_map, List.map_map]
  have hat := calls_at hdistinct hnamed hchannel
  rw [show ((fun look : Look => decide (look.call.address = a)) ∘ fun call => (⟨call, outcome call⟩ : Look)) =
    fun call => decide (call.address = a) from rfl, hat]
  rfl

theorem itemLooks_at (hnamed : (a, task) ∈ named tasks platform) {now statusCode : Int}
    (answer : BatchItems) (hasked : ∀ entry ∈ answer.items, entry.1 ∈ (platformPass tasks platform).taskIds channelId) :
    (((platformPass tasks platform).itemLooks platform channelId now statusCode answer.items).filter
      fun look => look.call.address = a).map Look.outcome =
        ((answer.items.find? fun entry => entry.1 = task.getUpstreamTaskID).map fun entry =>
          Outcome.batchItem now statusCode entry.2).toList := by
  have hstep : ∀ entry ∈ answer.items,
      (((((platformPass tasks platform).call platform channelId entry.1).map fun call =>
        (⟨call, .batchItem now statusCode entry.2⟩ : Look)).filter fun look => look.call.address = a).map Look.outcome) =
        if entry.1 = task.getUpstreamTaskID then some (.batchItem now statusCode entry.2) else none := by
    intro entry hentry
    have hid := hasked entry hentry
    rw [taskIds_eq, List.mem_map] at hid
    obtain ⟨⟨b, other⟩, hmem, hother⟩ := hid
    have hother' := (List.mem_filter.mp hmem).1
    rw [← hother, Pass.call, task_eq hdistinct hother']
    by_cases hsame : other.getUpstreamTaskID = task.getUpstreamTaskID
    · obtain ⟨rfl, rfl⟩ := hdistinct.eq hother' hnamed hsame
      simp
    have hne : b ≠ a := by
      rintro rfl
      obtain ⟨hx, -, -⟩ := mem_named.mp hother'
      obtain ⟨hy, -, -⟩ := mem_named.mp hnamed
      exact hsame (congrArg Task.getUpstreamTaskID (Option.some.inj (hx.symm.trans hy)))
    simp [hsame, hne]
  unfold Pass.itemLooks
  rw [List.filter_filterMap, List.map_filterMap, List.filterMap_congr hstep]
  have hfilter : answer.items.filterMap (fun entry =>
        if entry.1 = task.getUpstreamTaskID then some (Outcome.batchItem now statusCode entry.2) else none) =
      (answer.items.filter fun entry => entry.1 = task.getUpstreamTaskID).map fun entry =>
        Outcome.batchItem now statusCode entry.2 := by
    rw [← List.filterMap_eq_map, List.filterMap_filter]
    apply List.filterMap_congr
    intro entry _
    simp
  rw [hfilter, filter_key_toList answer.nodup, Option.toList_map]

theorem updateTasks_at (hasked : AnswersAsked w)
    (hnamed : (a, task) ∈ named tasks platform) (hchannel : task.channelId = channelId)
    (hmidjourney : task.platform ≠ platformMidjourney) :
    ((updateTasks w platform (platformPass tasks platform) channelId).filter fun look => look.call.address = a).map
      Look.outcome = (ownOutcome w tasks task).toList := by
  obtain ⟨-, hplatform, hne⟩ := mem_named.mp hnamed
  have hmap := map_at hdistinct hnamed hchannel
  have hids : (platformPass tasks platform).taskIds channelId = askedWith tasks task :=
    taskIds_askedWith hplatform hchannel
  unfold ownOutcome
  rw [if_neg (by simp [hmidjourney, hne]), hchannel, hplatform, ← hids]
  unfold updateTasks updateBatchTasks updateVideoTasks
  by_cases hknown : w.hasChannel channelId = false
  · rw [if_pos hknown, if_pos hknown, if_pos hknown, ite_self]
    exact hmap fun _ => .missingChannel
  rw [if_neg hknown, if_neg hknown, if_neg hknown]
  rcases hadaptor : w.adaptor platform with _ | mode
  · simp
  cases mode with
  | single =>
    rw [if_neg (by simp), if_neg (by simp)]
    exact hmap fun call =>
      .single (w.single platform channelId call.upstreamID).1 (w.single platform channelId call.upstreamID).2
  | batch =>
    rw [if_pos rfl]
    rcases hanswer : w.batch platform channelId ((platformPass tasks platform).taskIds channelId) with ⟨now, answer⟩
    have hitems := fun statusCode items h => hasked platform channelId _ statusCode items (by rw [hanswer]; exact h)
    rcases answer with _ | ⟨statusCode, _ | items⟩
    · exact hmap fun _ => .batchFailure now false
    · dsimp only
      cases classifyPollHTTP statusCode with
      | notFound => exact hmap fun _ => .batchFailure now true
      | ok | auth | transient | otherClient => exact hmap fun _ => .batchFailure now false
    · dsimp only
      cases classifyPollHTTP statusCode with
      | notFound => exact hmap fun _ => .batchFailure now true
      | auth | transient => exact hmap fun _ => .batchFailure now false
      | ok | otherClient => exact itemLooks_at hdistinct hnamed items (hitems statusCode items rfl)

end Channel

/-! ## The run -/

theorem dispatchChannels_nodup (platform : String) (p : Pass) : (dispatchChannels platform p).Nodup := by
  unfold dispatchChannels
  split
  · exact List.nodup_nil
  · exact List.nodup_dedup _

theorem mem_dispatchChannels {tasks : List Task} {platform : String} {a : Nat} {task : Task}
    (hnamed : (a, task) ∈ named tasks platform) (hmidjourney : platform ≠ platformMidjourney) :
    task.channelId ∈ dispatchChannels platform (platformPass tasks platform) := by
  unfold dispatchChannels
  rw [if_neg hmidjourney, Pass.channelIds, List.mem_dedup]
  refine List.mem_map.mpr ⟨(task.channelId, task.getUpstreamTaskID), ?_, rfl⟩
  exact List.mem_map.mpr ⟨(a, task), hnamed, rfl⟩

theorem run_at {β : Type} (call : β → Call) (f : String → Int → List β) {tasks : List Task}
    (hown : ∀ platform channelId, ∀ x ∈ f platform channelId,
      OwnAt tasks platform channelId (call x))
    {a : Nat} {task : Task} (hget : tasks[a]? = some task) :
    ((platforms tasks).flatMap fun platform =>
      (dispatchChannels platform (platformPass tasks platform)).flatMap fun channelId => f platform channelId).filter
        (fun x => (call x).address = a) =
      if task.platform = platformMidjourney ∨ task.getUpstreamTaskID = "" then []
      else (f task.platform task.channelId).filter fun x => (call x).address = a := by
  obtain ⟨part, hpart⟩ : ∃ part, part = (f task.platform task.channelId).filter fun x => (call x).address = a :=
    ⟨_, rfl⟩
  rw [← hpart]
  have hat : ∀ platform channelId, ∀ x ∈ f platform channelId, (call x).address = a →
      platform = task.platform ∧ channelId = task.channelId ∧ task.getUpstreamTaskID ≠ "" := by
    intro platform channelId x hx hax
    obtain ⟨⟨_, hother, hp, hc, hid, hne⟩, hp', hc'⟩ := hown platform channelId x hx
    rw [hax, hget] at hother
    obtain rfl := Option.some.inj hother
    exact ⟨hp'.symm.trans hp.symm, hc'.symm.trans hc.symm, hid ▸ hne⟩
  have hparts : ∀ platform channelId, (f platform channelId).filter (fun x => (call x).address = a) =
      if channelId = task.channelId then (if platform = task.platform then part else []) else [] := by
    intro platform channelId
    by_cases hsame : channelId = task.channelId ∧ platform = task.platform
    · rw [if_pos hsame.1, if_pos hsame.2, hsame.1, hsame.2, hpart]
    rw [List.filter_eq_nil_iff.mpr, ← ite_and, if_neg hsame]
    intro x hx hax
    obtain ⟨hp, hc, -⟩ := hat platform channelId x hx (by simpa using hax)
    exact hsame ⟨hc, hp⟩
  have hnodup : (platforms tasks).Nodup := List.nodup_dedup _
  have hplatform : task.platform ∈ platforms tasks :=
    List.mem_dedup.mpr (List.mem_map_of_mem (List.mem_of_getElem? hget))
  simp only [List.filter_flatMap, hparts, flatMap_ite_eq (dispatchChannels_nodup _ _)]
  have hswap : (fun platform => if task.channelId ∈ dispatchChannels platform (platformPass tasks platform) then
        (if platform = task.platform then part else []) else []) = fun platform => if platform = task.platform then
        (if task.channelId ∈ dispatchChannels task.platform (platformPass tasks task.platform) then part else [])
        else [] := by
    funext platform
    by_cases hp : platform = task.platform
    · subst hp
      simp
    · simp [hp]
  rw [hswap, flatMap_ite_eq hnodup, if_pos hplatform]
  by_cases hskip : task.platform = platformMidjourney ∨ task.getUpstreamTaskID = ""
  · rw [if_pos hskip]
    rcases hskip with hmidjourney | hempty
    · simp [dispatchChannels, hmidjourney]
    · rw [hpart, List.filter_eq_nil_iff.mpr, ite_self]
      intro x hx hax
      exact (hat _ _ x hx (by simpa using hax)).2.2 hempty
  · have hnamed : (a, task) ∈ named tasks task.platform :=
      mem_named.mpr ⟨hget, rfl, fun h => hskip (Or.inr h)⟩
    rw [if_neg hskip, if_pos (mem_dispatchChannels hnamed fun h => hskip (Or.inl h))]

section Run

variable {w : Providers} {tasks : List Task} {a : Nat} {task : Task}

theorem runCalls_at (hdistinct : DistinctIds tasks) (hget : tasks[a]? = some task)
    (hmidjourney : task.platform ≠ platformMidjourney) (hne : task.getUpstreamTaskID ≠ "") :
    (runCalls tasks).filter (fun call => call.address = a) =
      [⟨task.platform, task.channelId, task.getUpstreamTaskID, a⟩] := by
  refine (run_at id (fun platform channelId => (platformPass tasks platform).calls platform channelId)
    (fun _ _ _ hx => own_of_mem_calls hdistinct hx) hget).trans ?_
  rw [if_neg (by simp [hmidjourney, hne])]
  exact calls_at hdistinct (mem_named.mpr ⟨hget, rfl, hne⟩) rfl

theorem own_of_mem_runLooks (hdistinct : DistinctIds tasks) (hasked : AnswersAsked w) {look : Look}
    (h : look ∈ runLooks w tasks) : Own tasks look.call := by
  obtain ⟨_, -, h⟩ := List.mem_flatMap.mp h
  obtain ⟨_, -, h⟩ := List.mem_flatMap.mp h
  exact (own_of_mem_updateTasks hdistinct hasked h).1

theorem runLooks_at (hdistinct : DistinctIds tasks) (hasked : AnswersAsked w) (hget : tasks[a]? = some task) :
    ((runLooks w tasks).filter fun look => look.call.address = a).map Look.outcome =
      (ownOutcome w tasks task).toList := by
  unfold runLooks
  rw [run_at Look.call (fun platform channelId => updateTasks w platform (platformPass tasks platform) channelId)
    (fun _ _ _ hx => own_of_mem_updateTasks hdistinct hasked hx) hget]
  by_cases hskip : task.platform = platformMidjourney ∨ task.getUpstreamTaskID = ""
  · simp [hskip, ownOutcome]
  · rw [if_neg hskip]
    rw [not_or] at hskip
    exact updateTasks_at hdistinct hasked (mem_named.mpr ⟨hget, rfl, hskip.2⟩) rfl hskip.1

end Run

theorem getElem?_applyLooks (settings : TaskSettings) (looks : List Look) (tasks : List Task) (a : Nat) :
    (applyLooks settings looks tasks)[a]? = tasks[a]?.map fun task =>
      ((looks.filter fun look => look.call.address = a).map Look.outcome).foldl (Outcome.apply settings) task := by
  induction looks generalizing tasks with
  | nil => simp [applyLooks]
  | cons look rest ih =>
    have hcons : applyLooks settings (look :: rest) tasks =
        applyLooks settings rest (tasks.modify look.call.address fun task => look.outcome.apply settings task) := rfl
    rw [hcons, ih, List.getElem?_modify]
    by_cases ha : look.call.address = a
    · simp [ha, Function.comp_def]
    · simp [ha]

theorem perm_toList {α : Type} {l : List α} {o : Option α} (h : l.Perm o.toList) : l = o.toList := by
  cases o with
  | none => exact List.perm_nil.mp h
  | some => exact List.perm_singleton.mp h

def taskOn (id channelId : Int) (upstreamID : String) : Task :=
  ⟨id, "task", "kling", channelId, 500, .submitted, "", 0, 0, 0, "10%", ⟨upstreamID, "", none, "", 0⟩, ""⟩

/-- The first channel reports a failure of whatever it is asked for. -/
def twoAccounts : Providers where
  hasChannel := fun _ => true
  adaptor := fun _ => some .single
  single := fun _ channelId _ =>
    if channelId = 1 then (10, .response 200 "one" (.adaptor (failTaskInfo "rejected")))
    else (20, .response 200 "two" (.adaptor ⟨.inProgress, "", "", "40%", 0, 0, ""⟩))
  batch := fun _ _ _ => (0, .transportError)

def pollSettings : TaskSettings := ⟨1000, 60, 3, "https://host"⟩

def talkative : Providers where
  hasChannel := fun _ => true
  adaptor := fun _ => some .batch
  single := fun _ _ _ => (0, .transportError)
  batch := fun _ _ _ => (10, .response 200 (some ⟨[("y", ⟨failTaskInfo "rejected", 0, 0, 0, none⟩)], by decide⟩))

/-- An item for an id that another channel has asked for is taken. -/
theorem batch_item_crosses_channels :
    (⟨⟨"kling", 1, "y", 1⟩, .batchItem 10 200 ⟨failTaskInfo "rejected", 0, 0, 0, none⟩⟩ : Look) ∈
        runLooks talkative [taskOn 1 1 "x", taskOn 2 2 "y"] ∧
      ¬ Own [taskOn 1 1 "x", taskOn 2 2 "y"] ⟨"kling", 1, "y", 1⟩ := by
  refine ⟨by decide +kernel, ?_⟩
  rintro ⟨_, hget, -, hchannel, -⟩
  obtain rfl := Option.some.inj hget
  exact absurd hchannel (by decide)

end NewApi.Tasks.Dispatch
