import Mathlib.Algebra.Group.Action.Defs
import NewApi.Code.ChannelCache
import NewApi.Lib.Run

/-!
# Disabled channels and the memory cache

An update of the status takes the channel out of each list at the first place where it stands.
-/

namespace NewApi.Channels

open Run Code.Channels

inductive CacheEvent where
  | rebuild (channels : ChannelTable) (abilityGroups : List String)
  | status (id : Int) (status : ChannelStatus)
  | update (channel : Channel)

def cacheStep (cache : ChannelCache) : CacheEvent → Option ChannelCache
  | .rebuild channels abilityGroups => initChannelCache cache channels abilityGroups
  | .status id status => some (cacheUpdateChannelStatus cache id status)
  | .update channel => some (cacheUpdateChannel cache channel)

def emptyCache : ChannelCache := ⟨fun _ _ => [], fun _ => none⟩

def NamesDiffer (id : Int) (_ : ChannelCache) : CacheEvent → Prop
  | .rebuild channels _ => ∀ channel ∈ channels.rows, channel.id = id →
      channel.groupNames.Nodup ∧ channel.getModels.Nodup
  | _ => True

def StaysDisabled (id : Int) (_ : ChannelCache) : CacheEvent → Prop
  | .rebuild _ _ => False
  | .status k status => k = id → status ≠ .enabled
  | .update _ => True

/-! ## One occurrence -/

variable {channel : Channel} {group : String} {id : Int} {cache next : ChannelCache} {e : CacheEvent}
  {request : Request} {channels : List Channel} {draw retry : Nat}

theorem occurrences_id {model : String} (h : id ∈ channel.occurrences group model) : id = channel.id := by
  unfold Channel.occurrences at h
  split at h
  · simp only [List.mem_flatMap, List.mem_map] at h
    obtain ⟨-, -, -, -, rfl⟩ := h
    rfl
  · simp at h

theorem length_filter_eq {names : List String} (h : names.Nodup) (name : String) :
    (names.filter (· = name)).length ≤ 1 := by
  rw [← List.countP_eq_length_filter]
  exact List.nodup_iff_count_le_one.mp h name

theorem occurrences_length (hgroups : channel.groupNames.Nodup)
    (hmodels : channel.getModels.Nodup) (group model : String) : (channel.occurrences group model).length ≤ 1 := by
  unfold Channel.occurrences
  split
  · have groups := length_filter_eq hgroups group
    have models := length_filter_eq hmodels model
    rw [List.length_flatMap]
    simp only [List.map_const', List.sum_replicate, smul_eq_mul, List.length_replicate]
    exact Nat.mul_le_mul groups models
  · simp

theorem count_occurrences {rows : List Channel} (unique : (rows.map Channel.id).Nodup)
    (names : ∀ channel ∈ rows, channel.id = id → channel.groupNames.Nodup ∧ channel.getModels.Nodup)
    (group model : String) : (rows.flatMap fun channel => channel.occurrences group model).count id ≤ 1 := by
  induction rows with
  | nil => simp
  | cons channel rows ih =>
    rw [List.flatMap_cons, List.count_append]
    rw [List.map_cons, List.nodup_cons] at unique
    by_cases hid : channel.id = id
    · -- the key is unique, so no later row has it
      have later : (rows.flatMap fun channel => channel.occurrences group model).count id = 0 := by
        rw [List.count_eq_zero, List.mem_flatMap]
        rintro ⟨other, hother, hmem⟩
        exact unique.1 (List.mem_map.mpr ⟨other, hother, (occurrences_id hmem).symm.trans hid.symm⟩)
      have here := (List.count_le_length (l := channel.occurrences group model) (a := id)).trans
        (occurrences_length (names channel (by simp) hid).1 (names channel (by simp) hid).2 group model)
      omega
    · have here : (channel.occurrences group model).count id = 0 := by
        rw [List.count_eq_zero]
        exact fun hmem => hid (occurrences_id hmem).symm
      have := ih unique.2 fun other hother => names other (List.mem_cons_of_mem _ hother)
      omega

/-! ## What every cache keeps -/

def Keyed (cache : ChannelCache) : Prop := ∀ k channel, cache.channelsIDM k = some channel → channel.id = k

def ListedOnce (id : Int) (cache : ChannelCache) : Prop :=
  ∀ group model, (cache.group2model2channels group model).count id ≤ 1

theorem carryOver_id (old : Option Channel) (channel : Channel) : (carryOver old channel).id = channel.id := by
  unfold carryOver
  split
  · split
    · split <;> rfl
    · rfl
  · rfl

theorem cacheStep_keyed (keyed : Keyed cache) (h : cacheStep cache e = some next) : Keyed next := by
  intro k channel hk
  cases e with
  | rebuild =>
    simp only [cacheStep, initChannelCache] at h
    split at h
    · obtain rfl := Option.some.inj h
      obtain ⟨_, hrow, rfl⟩ := Option.map_eq_some_iff.mp hk
      rw [carryOver_id]
      simpa using List.find?_some hrow
    · cases h
  | status =>
    obtain rfl := Option.some.inj h
    simp only [cacheUpdateChannelStatus] at hk
    split at hk
    · obtain ⟨old, hold, rfl⟩ := Option.map_eq_some_iff.mp hk
      exact keyed k old hold
    · exact keyed k channel hk
  | update =>
    obtain rfl := Option.some.inj h
    simp only [cacheUpdateChannel] at hk
    split at hk
    · obtain rfl := Option.some.inj hk
      exact Eq.symm ‹_›
    · exact keyed k channel hk

theorem count_sortByPriority (channelsIDM : Int → Option Channel) (ids : List Int) (id : Int) :
    (sortByPriority channelsIDM ids).count id = ids.count id :=
  (List.perm_insertionSort _ ids).count_eq id

theorem cacheStep_once (names : NamesDiffer id cache e)
    (once : ListedOnce id cache) (h : cacheStep cache e = some next) : ListedOnce id next := by
  intro group model
  cases e with
  | rebuild channels =>
    simp only [cacheStep, initChannelCache] at h
    split at h
    · obtain rfl := Option.some.inj h
      rw [count_sortByPriority]
      exact count_occurrences channels.unique names group model
    · cases h
  | status =>
    obtain rfl := Option.some.inj h
    simp only [cacheUpdateChannelStatus]
    split
    · exact once group model
    · exact (List.erase_sublist.count_le id).trans (once group model)
  | update =>
    obtain rfl := Option.some.inj h
    exact once group model

def Unlisted (id : Int) (cache : ChannelCache) : Prop := ∀ group model, id ∉ cache.group2model2channels group model

theorem status_unlisted {status : ChannelStatus} (once : ListedOnce id cache)
    (hstatus : status ≠ .enabled) : Unlisted id (cacheUpdateChannelStatus cache id status) := by
  intro group model hmem
  simp only [cacheUpdateChannelStatus, hstatus, if_false] at hmem
  have := List.count_erase_self (a := id) (l := cache.group2model2channels group model)
  have := once group model
  have := List.count_pos_iff.mpr hmem
  omega

theorem cacheStep_unlisted (stays : StaysDisabled id cache e)
    (unlisted : Unlisted id cache) (h : cacheStep cache e = some next) : Unlisted id next := by
  cases e with
  | rebuild => exact stays.elim
  | status =>
    obtain rfl := Option.some.inj h
    intro group model hmem
    simp only [cacheUpdateChannelStatus] at hmem
    split at hmem
    · exact unlisted group model hmem
    · exact unlisted group model (List.mem_of_mem_erase hmem)
  | update =>
    obtain rfl := Option.some.inj h
    exact unlisted

structure Removed (id : Int) (cache : ChannelCache) : Prop where
  unlisted : Unlisted id cache
  keyed : Keyed cache

theorem cacheStep_removed (stays : StaysDisabled id cache e)
    (removed : Removed id cache) (h : cacheStep cache e = some next) : Removed id next :=
  ⟨cacheStep_unlisted stays removed.unlisted h, cacheStep_keyed removed.keyed h⟩

/-! ## What is selected -/

theorem filterKinds_subset (cache : ChannelCache) (modelName : String) (filters : List ChannelFilter)
    (kinds : List ChannelFilterKind) (kept : List Int) : filterKinds cache modelName filters kinds kept ⊆ kept := by
  induction kinds generalizing kept with
  | nil => exact List.Subset.refl kept
  | cons kind kinds ih =>
    simp only [filterKinds]
    split
    · exact ih kept
    · split
      · exact List.filter_subset_self kept
      · exact List.Subset.trans (ih _) (List.filter_subset_self kept)

theorem candidates_listed
    (h : id ∈ cache.candidates request group) : ∃ model, id ∈ cache.group2model2channels group model := by
  have kept : ∀ ids, filterCandidateIDs cache ids request.modelName request.filters ⊆ ids := by
    intro ids
    unfold filterCandidateIDs
    split
    · exact List.Subset.refl ids
    · exact filterKinds_subset _ _ _ _ ids
  simp only [ChannelCache.candidates] at h
  split at h <;> exact ⟨_, kept _ h⟩

theorem pickByWeight_mem {factor adjustment randomWeight : Int}
    (h : pickByWeight factor adjustment randomWeight channels = .ok channel) : channel ∈ channels := by
  induction channels generalizing randomWeight with
  | nil => cases h
  | cons first rest ih =>
    simp only [pickByWeight] at h
    split at h
    · obtain rfl := Except.ok.inj h
      simp
    · exact List.mem_cons_of_mem _ (ih h)

theorem weighted_mem (h : weighted draw channels = .ok channel) : channel ∈ channels := by
  simp only [weighted] at h
  split at h
  · cases h
  · exact pickByWeight_mem h

theorem chooseByPriority_spec {modelName : String}
    (h : (chooseByPriority modelName group draw retry channels).1 = some channel) :
    channel ∈ channels ∧ targetPriority (channels.map Channel.getPriority) retry = some channel.getPriority := by
  unfold chooseByPriority at h
  split at h
  · cases h
  rename_i priority hpriority
  split at h
  · cases h
  split at h
  · rename_i chosen hchosen
    obtain rfl := Option.some.inj h
    have hmem := List.mem_filter.mp (weighted_mem hchosen)
    rw [hpriority, show chosen.getPriority = priority by simpa using hmem.2]
    exact ⟨hmem.1, rfl⟩
  · cases h

def offered (cache : ChannelCache) (request : Request) (group : String) : List Channel :=
  (cache.candidates request group).filterMap cache.channelsIDM

theorem selected_spec (h : (cache.getRandomSatisfiedChannel request draw group retry).1 = some channel) :
    channel ∈ offered cache request group ∧
      targetPriority ((offered cache request group).map Channel.getPriority) retry = some channel.getPriority := by
  unfold ChannelCache.getRandomSatisfiedChannel at h
  unfold offered
  split at h
  · cases h
  · rename_i id hids
    rw [hids]
    split at h
    · rename_i found hfound
      obtain rfl := Option.some.inj h
      simp [hfound, targetPriority, sortedUniquePriorities]
    · cases h
  · split at h
    · cases h
    · exact chooseByPriority_spec h

theorem selected_listed (keyed : Keyed cache)
    (h : (cache.getRandomSatisfiedChannel request draw group retry).1 = some channel) :
    ∃ model, channel.id ∈ cache.group2model2channels group model := by
  obtain ⟨id, hid, hfound⟩ := List.mem_filterMap.mp (selected_spec h).1
  rw [keyed id channel hfound]
  exact candidates_listed hid

/-! ## Disabled is not selected -/

theorem disabled_not_selected {id : Int} {status : ChannelStatus} {before after : List CacheEvent}
    {cache last : ChannelCache} (names : Steps cacheStep (NamesDiffer id) emptyCache before cache)
    (hstatus : status ≠ .enabled)
    (stays : Steps cacheStep (StaysDisabled id) (cacheUpdateChannelStatus cache id status) after last)
    (request : Request) (draw : Nat) (group : String) (retry : Nat) :
    ∀ channel ∈ (last.getRandomSatisfiedChannel request draw group retry).1, channel.id ≠ id := by
  have keyed : Keyed cache :=
    names.invariant (fun _ _ _ _ => cacheStep_keyed) (by simp [Keyed, emptyCache])
  have once : ListedOnce id cache :=
    names.invariant (fun _ _ _ => cacheStep_once) (by simp [ListedOnce, emptyCache])
  have atUpdate : Removed id (cacheUpdateChannelStatus cache id status) :=
    ⟨status_unlisted once hstatus, cacheStep_keyed keyed (e := .status id status) rfl⟩
  have atEnd : Removed id last := stays.invariant (fun _ _ _ => cacheStep_removed) atUpdate
  rintro _ hchannel rfl
  obtain ⟨model, hmem⟩ := selected_listed atEnd.keyed hchannel
  exact atEnd.unlisted group model hmem

def channelFor (id : Int) (models : String) : Channel :=
  ⟨id, "sk", .enabled, none, models, "default", none, none, none,
    ⟨false, 0, fun _ => none, fun _ => none, fun _ => none, 0, .random⟩, []⟩

def requestFor (modelName : String) : Request := ⟨modelName, modelName, []⟩

theorem disabled_not_selected_two_models :
    ∃ cache, cacheStep emptyCache (.rebuild ⟨[channelFor 1 "m,n"], by decide⟩ ["default"]) = some cache ∧
      ∀ request draw group retry, ∀ channel ∈
        ((cacheUpdateChannelStatus cache 1 .manuallyDisabled).getRandomSatisfiedChannel request draw group retry).1,
        channel.id ≠ 1 := by
  obtain ⟨cache, hcache⟩ := Option.isSome_iff_exists.mp (show (cacheStep emptyCache
    (.rebuild ⟨[channelFor 1 "m,n"], by decide⟩ ["default"])).isSome = true by decide +kernel)
  refine ⟨cache, hcache, disabled_not_selected (.more ?_ hcache (.done _)) (by decide) (.done _)⟩
  intro channel hchannel _
  obtain rfl := List.mem_singleton.mp hchannel
  decide +kernel

/-- The list holds the channel twice, and the update takes out one. -/
theorem repeated_model_selected :
    (cacheStep emptyCache (.rebuild ⟨[channelFor 1 "m,m"], by decide⟩ ["default"])).map (fun cache =>
      ((cacheUpdateChannelStatus cache 1 .manuallyDisabled).getRandomSatisfiedChannel (requestFor "m") 0
        "default" 0).1.map Channel.id) = some (some 1) := by
  decide +kernel

end NewApi.Channels
