import NewApi.Channels.ManualDisable

/-!
# Keys that were disabled

With the memory cache off, selections and key operations save the whole info of their copy.
-/

namespace NewApi.Channels

open Run Code.Channels

def Off (channel : Channel) (key : String) : Prop :=
  ∀ i, channel.getKeys[i]? = some key → getStatus channel.channelInfo.multiKeyStatusList i ≠ .enabled

variable {channel channel' copy row : Channel} {key reason usingKey : String} {now : Int} {status : ChannelStatus}
  {action : KeyAction} {call : StatusCall} {s : System}

theorem mem_keyStatuses {entry : String × ChannelStatus} : entry ∈ keyStatuses channel ↔
      ∃ i, channel.getKeys[i]? = some entry.1 ∧ getStatus channel.channelInfo.multiKeyStatusList i = entry.2 := by
  simp only [keyStatuses, marked, List.mem_map, Prod.exists, List.mem_zipIdx_iff_getElem?]
  constructor
  · rintro ⟨_, i, hi, rfl⟩
    exact ⟨i, hi, rfl⟩
  · rintro ⟨i, hi, hstatus⟩
    exact ⟨entry.1, i, hi, by rw [hstatus]⟩

theorem off_iff : Off channel key ↔ ∀ entry ∈ keyStatuses channel, entry.1 = key → entry.2 ≠ .enabled := by
  constructor
  · rintro off _ hentry rfl
    obtain ⟨i, hi, hstatus⟩ := mem_keyStatuses.mp hentry
    exact hstatus ▸ off i hi
  · intro h i hi
    exact h (key, _) (mem_keyStatuses.mpr ⟨i, hi, rfl⟩) rfl

theorem Off.of_same (off : Off channel key) (hkeys : channel'.getKeys = channel.getKeys)
    (hstatus : ∀ i, channel.getKeys[i]? = some key →
      getStatus channel.channelInfo.multiKeyStatusList i ≠ .enabled →
      getStatus channel'.channelInfo.multiKeyStatusList i ≠ .enabled) : Off channel' key := by
  intro i hi
  rw [hkeys] at hi
  exact hstatus i hi (off i hi)

/-! ## Status calls -/

theorem getKeys_congr (hkey : channel'.key = channel.key)
    (hkeys : channel'.keys = channel.keys) : channel'.getKeys = channel.getKeys := by
  simp [Channel.getKeys, hkey, hkeys]

theorem handler_spec (now : Int) (channel : Channel) (usingKey reason : String) (status : ChannelStatus) :
    let changed := handlerMultiKeyUpdate now channel usingKey status reason
    changed.getKeys = channel.getKeys ∧ changed.channelInfo.isMultiKey = channel.channelInfo.isMultiKey ∧
      (changed.channelInfo = channel.channelInfo ∧ channel.getKeys.findIdx? (· = usingKey) = none ∨
        ∃ i, channel.getKeys.findIdx? (· = usingKey) = some i ∧
          changed.channelInfo = setKeyStatus now reason status i channel.channelInfo) := by
  have hmulti : ∀ i, (setKeyStatus now reason status i channel.channelInfo).isMultiKey =
      channel.channelInfo.isMultiKey := by
    intro i
    unfold setKeyStatus
    split <;> rfl
  intro changed
  simp only [changed, handlerMultiKeyUpdate]
  split
  · rename_i hnil
    exact ⟨getKeys_congr rfl rfl, rfl, .inl ⟨rfl, by simp [hnil]⟩⟩
  cases hfound : channel.getKeys.findIdx? (· = usingKey) with
  | none =>
    dsimp only
    split
    · exact ⟨rfl, rfl, .inl ⟨rfl, rfl⟩⟩
    · exact ⟨getKeys_congr rfl rfl, rfl, .inl ⟨rfl, rfl⟩⟩
  | some i =>
    dsimp only
    split
    · exact ⟨getKeys_congr rfl rfl, hmulti i, .inr ⟨i, rfl, rfl⟩⟩
    · split <;> exact ⟨getKeys_congr rfl rfl, hmulti i, .inr ⟨i, rfl, rfl⟩⟩

theorem setKeyStatus_self {i : Nat} {info : ChannelInfo} :
    getStatus (setKeyStatus now reason status i info).multiKeyStatusList i = status := by
  unfold setKeyStatus
  split
  · simp [getStatus, *]
  · simp [getStatus]

theorem handler_off (off : Off channel key) (h : status ≠ .enabled ∨ key ≠ usingKey) :
    Off (handlerMultiKeyUpdate now channel usingKey status reason) key := by
  obtain ⟨hkeys, -, ⟨hinfo, -⟩ | ⟨i, hfound, hinfo⟩⟩ := handler_spec now channel usingKey reason status
  · exact off.of_same hkeys (by simp [hinfo])
  refine off.of_same hkeys fun j hj hold => ?_
  rw [hinfo]
  by_cases hji : j = i
  · subst hji
    rw [setKeyStatus_self]
    rcases h with h | h
    · exact h
    · obtain ⟨hi, hkey, -⟩ := List.findIdx?_eq_some_iff_getElem.mp hfound
      rw [List.getElem?_eq_getElem hi, Option.some_inj] at hj
      exact absurd (hj.symm.trans (by simpa using hkey)) h
  · simpa [getStatus, setKeyStatus_other hji] using hold

theorem handler_disables (hstatus : status ≠ .enabled) (distinct : channel.getKeys.Nodup) :
    Off (handlerMultiKeyUpdate now channel usingKey status reason) usingKey := by
  intro j hj
  obtain ⟨hkeys, -, ⟨-, hnone⟩ | ⟨i, hfound, hinfo⟩⟩ := handler_spec now channel usingKey reason status
  · rw [hkeys] at hj
    have := List.findIdx?_eq_none_iff.mp hnone usingKey (List.mem_of_getElem? hj)
    simp at this
  rw [hkeys] at hj
  obtain ⟨hi, hkey, -⟩ := List.findIdx?_eq_some_iff_getElem.mp hfound
  obtain ⟨hjlt, hjkey⟩ := List.getElem?_eq_some_iff.mp hj
  have hji : j = i := (List.Nodup.getElem_inj_iff distinct).mp (hjkey.trans (Eq.symm (by simpa using hkey)))
  rw [hinfo, hji, setKeyStatus_self]
  exact hstatus

/-! ## The selection of a key -/

structure Answers (copy : Channel) (answer : NextKey) : Prop where
  key : copy.getKeys[answer.index]? = some answer.key
  enabled : getStatus copy.channelInfo.multiKeyStatusList answer.index = .enabled
  saved : ∀ channel ∈ answer.saved, channel.channelInfo.isMultiKey = true ∧
    channel.channelInfo.multiKeyStatusList = copy.channelInfo.multiKeyStatusList

theorem answers_at {idx : Nat} {saved : Option Channel} (hidx : idx < copy.getKeys.length)
    (henabled : getStatus copy.channelInfo.multiKeyStatusList idx = .enabled)
    (hsaved : ∀ channel ∈ saved, channel.channelInfo.isMultiKey = true ∧
      channel.channelInfo.multiKeyStatusList = copy.channelInfo.multiKeyStatusList) :
    Answers copy ⟨copy.getKeys[idx]?.getD "", idx, saved⟩ :=
  ⟨by simp [hidx], henabled, hsaved⟩

theorem getNextEnabledKey_answers {pollingIndex : Int} {draw : Nat} {answer : NextKey}
    (hmulti : copy.channelInfo.isMultiKey = true) (h : getNextEnabledKey copy pollingIndex draw = .ok answer) :
    Answers copy answer := by
  simp only [getNextEnabledKey, hmulti, Bool.true_eq_false, if_false] at h
  split at h
  · cases h
  rename_i hkeys
  split at h
  · cases h
  rename_i henabled
  -- every index of the list of enabled ones is a place of an enabled key
  have member : ∀ idx ∈ (List.range copy.getKeys.length).filter
      (fun i => getStatus copy.channelInfo.multiKeyStatusList i = .enabled),
      idx < copy.getKeys.length ∧ getStatus copy.channelInfo.multiKeyStatusList idx = .enabled := by
    intro idx hidx
    simpa using hidx
  generalize (List.range copy.getKeys.length).filter
    (fun i => getStatus copy.channelInfo.multiKeyStatusList i = .enabled) = enabledIdx at h henabled member
  have first : enabledIdx.headD 0 ∈ enabledIdx := by
    cases enabledIdx with
    | nil => exact absurd rfl henabled
    | cons => simp
  split at h
  · obtain rfl := Except.ok.inj h
    have hlt : draw % enabledIdx.length < enabledIdx.length :=
      Nat.mod_lt _ (List.length_pos_iff.mpr henabled)
    rw [List.getElem?_eq_getElem hlt, Option.getD_some]
    have hmem := member _ (List.getElem_mem hlt)
    exact answers_at hmem.1 hmem.2 (by simp)
  · split at h
    · rename_i idx hnext
      obtain rfl := Except.ok.inj h
      have hstatus := List.find?_some hnext
      obtain ⟨i, -, rfl⟩ := List.mem_map.mp (List.mem_of_find?_eq_some hnext)
      refine answers_at (Nat.mod_lt _ (List.length_pos_iff.mpr hkeys)) (by simpa using hstatus) ?_
      rintro saved hsaved
      obtain rfl := Option.some.inj hsaved
      exact ⟨rfl, rfl⟩
    · obtain rfl := Except.ok.inj h
      refine answers_at (member _ first).1 (member _ first).2 ?_
      rintro _ hsaved
      obtain rfl := Option.some.inj hsaved
      exact ⟨hmulti, rfl⟩
  · obtain rfl := Except.ok.inj h
    exact answers_at (member _ first).1 (member _ first).2 (by simp)

/-! ## Key operations -/

structure Current (row copy : Channel) : Prop where
  key : copy.key = row.key
  loaded : copy.keys = row.keys
  multi : copy.channelInfo.isMultiKey = row.channelInfo.isMultiKey
  statusList : copy.channelInfo.multiKeyStatusList = row.channelInfo.multiKeyStatusList

theorem Current.getKeys (h : Current row copy) : copy.getKeys = row.getKeys :=
  getKeys_congr h.key h.loaded

theorem Current.off (h : Current row copy) (off : Off row key) : Off copy key :=
  off.of_same h.getKeys (by simp [h.statusList])

theorem getKeys_le_counted (h : channel.keys = []) : channel.getKeys.length ≤ (countedKeys channel.key).length := by
  simp only [Channel.getKeys, countedKeys, h]
  split
  · simp
  · cases arrayKeys channel.key with
    | none => simp
    | some keys => cases keys <;> simp

theorem update_same_keys {changed : Channel} (hkey : changed.key = row.key) (hloaded : row.keys = [])
    (hmulti : changed.channelInfo.isMultiKey = true) :
    (update row changed).getKeys = row.getKeys ∧ (update row changed).channelInfo.isMultiKey = true ∧
      ∀ i < row.getKeys.length, (update row changed).channelInfo.multiKeyStatusList i =
        changed.channelInfo.multiKeyStatusList i := by
  refine ⟨getKeys_congr ?_ rfl, by simp [update, updates, recount, hmulti], fun i hi => ?_⟩
  · simp only [update, updates, hkey]
    split <;> rfl
  · have hcounted : i < (countedKeys row.key).length := hi.trans_le (getKeys_le_counted hloaded)
    simp [update, updates, recount, hmulti, hkey, hcounted]

@[simp]
theorem restore_key (now : Int) (channel : Channel) :
    (restoreMultiKeyChannelIfAvailable now channel).key = channel.key := by
  unfold restoreMultiKeyChannelIfAvailable
  split
  · rfl
  · split <;> rfl

@[simp]
theorem restore_info (now : Int) (channel : Channel) :
    (restoreMultiKeyChannelIfAvailable now channel).channelInfo = channel.channelInfo := by
  unfold restoreMultiKeyChannelIfAvailable
  split
  · rfl
  · split <;> rfl

def newStatuses (copy : Channel) : KeyAction → Nat → Option ChannelStatus
  | .disableKey (some k) => Function.update copy.channelInfo.multiKeyStatusList k.toNat (some .manuallyDisabled)
  | .enableKey (some k) => Function.update copy.channelInfo.multiKeyStatusList k.toNat none
  | .enableAllKeys => fun _ => none
  | .disableAllKeys => fun i =>
    if i < copy.channelInfo.multiKeySize ∧ getStatus copy.channelInfo.multiKeyStatusList i = .enabled then
      some .manuallyDisabled
    else copy.channelInfo.multiKeyStatusList i
  | _ => copy.channelInfo.multiKeyStatusList

theorem apply_spec {changed : Channel} (hkept : ¬IsDeletion action) (h : action.apply now copy = .ok changed) :
    changed.key = copy.key ∧ changed.channelInfo.isMultiKey = copy.channelInfo.isMultiKey ∧
      changed.channelInfo.multiKeyStatusList = newStatuses copy action := by
  cases action with
  | deleteKey | deleteDisabledKeys => exact absurd trivial hkept
  | disableKey | enableKey =>
    obtain ⟨i, hi, rfl⟩ := ok_of_map h
    obtain ⟨k, rfl, rfl⟩ := checkKeyIndex_ok hi
    simp [newStatuses]
  | enableAllKeys =>
    obtain rfl := Except.ok.inj h
    simp [enableAllKeys, newStatuses]
  | disableAllKeys =>
    simp only [KeyAction.apply, disableAllKeys] at h
    split at h
    · cases h
    · obtain rfl := Except.ok.inj h
      simp [newStatuses]

theorem newStatuses_off {disabled : List String} {i : Nat}
    (off : ∀ key ∈ disabled, Off copy key) (distinct : copy.getKeys.Nodup) (hkept : ¬IsDeletion action)
    (hkey : key ∈ rememberAction copy disabled action) (hi : copy.getKeys[i]? = some key) :
    getStatus (newStatuses copy action) i ≠ .enabled := by
  have place : ∀ j, copy.getKeys[j]? = some key → j = i := by
    intro j hj
    obtain ⟨hjlt, hjkey⟩ := List.getElem?_eq_some_iff.mp hj
    obtain ⟨hilt, hikey⟩ := List.getElem?_eq_some_iff.mp hi
    exact (List.Nodup.getElem_inj_iff distinct).mp (hjkey.trans hikey.symm)
  cases action with
  | deleteKey | deleteDisabledKeys => exact absurd trivial hkept
  | enableAllKeys => simp [rememberAction] at hkey
  | disableKey keyIndex =>
    cases keyIndex with
    | none => exact off key (by simpa [rememberAction, keyAt] using hkey) i hi
    | some k =>
      simp only [newStatuses, getStatus]
      by_cases hk : i = k.toNat
      · simp [hk]
      rw [Function.update_of_ne hk]
      simp only [rememberAction, List.mem_append, Option.mem_toList] at hkey
      rcases hkey with hkey | hkey
      · exact absurd (place _ hkey).symm hk
      · exact off key hkey i hi
  | enableKey keyIndex =>
    simp only [rememberAction, List.mem_filter, decide_eq_true_eq] at hkey
    cases keyIndex with
    | none => exact off key hkey.1 i hi
    | some k =>
      have hk : i ≠ k.toNat := by
        rintro rfl
        exact hkey.2 hi
      simp only [newStatuses, getStatus]
      rw [Function.update_of_ne hk]
      exact off key hkey.1 i hi
  | disableAllKeys =>
    rw [getStatus, newStatuses]
    beta_reduce
    by_cases hnot : i < copy.channelInfo.multiKeySize ∧ getStatus copy.channelInfo.multiKeyStatusList i = .enabled
    · rw [if_pos hnot]
      simp
    rw [if_neg hnot]
    simp only [rememberAction, List.mem_append] at hkey
    rcases hkey with hkey | hkey
    · obtain ⟨j, hj⟩ := List.mem_iff_getElem?.mp hkey
      rw [List.getElem?_take] at hj
      split at hj
      · obtain rfl := place j hj
        exact fun henabled => hnot ⟨‹_›, henabled⟩
      · cases hj
    · exact off key hkey i hi

/-! ## Conditions on the steps -/

/-- Copies are current, keys differ, and what a deletion leaves can be read back. -/
def UpToDate (s : System) : WriterEvent → Prop
  | .beginStatus (.disableChannel _ _) _ => s.row.status ≠ .autoDisabled ∧ s.row.getKeys.Nodup
  | .nextKey k _ => ∀ copy ∈ s.copies[k]?, Current s.row copy
  | .manage k _ action => ∀ copy ∈ s.copies[k]?, Current s.row copy ∧ (¬IsDeletion action → s.row.getKeys.Nodup) ∧
      (IsDeletion action → Separable ((without (keyStatuses s.row) action).map Prod.fst))
  | _ => True

/-! ## The statuses through the steps -/

structure KeysOff (s : System) : Prop where
  memory : s.memoryCacheEnabled = false
  loaded : s.row.keys = []
  multi : s.row.channelInfo.isMultiKey = true
  row : ∀ key ∈ s.disabled, Off s.row key
  writer : ∀ writer ∈ s.writer, writer.channel.getKeys = s.row.getKeys ∧
    writer.channel.channelInfo.isMultiKey = true ∧ ∀ key ∈ writer.call.remember s.disabled, Off writer.channel key

theorem remember_of_not_disable {disabled : List String}
    (hcall : ∀ usingKey reason, call ≠ .disableChannel usingKey reason) (h : key ∈ call.remember disabled) :
    key ∈ disabled := by
  cases call with
  | disableChannel usingKey reason => exact absurd rfl (hcall usingKey reason)
  | enableChannel => exact List.mem_of_mem_filter h
  | admin =>
    simp only [StatusCall.remember] at h
    split at h
    · exact List.mem_of_mem_filter h
    · exact h

theorem handler_remember (off : ∀ key ∈ s.disabled, Off s.row key) (ok : UpToDate s (.beginStatus call now))
    (hkey : key ∈ call.remember s.disabled) :
    Off (handlerMultiKeyUpdate now s.row call.usingKey call.status call.reason) key := by
  cases call with
  | disableChannel =>
    rcases List.mem_cons.mp hkey with rfl | hkey
    · exact handler_disables (by simp [StatusCall.status]) ok.2
    · exact handler_off (off key hkey) (.inl (by simp [StatusCall.status]))
  | enableChannel =>
    simp only [StatusCall.remember, List.mem_filter, decide_eq_true_eq] at hkey
    exact handler_off (off key hkey.1) (.inr hkey.2)
  | admin enable =>
    cases enable with
    | false => exact handler_off (off key hkey) (.inl (by simp [StatusCall.status]))
    | true =>
      simp only [StatusCall.remember, if_true, List.mem_filter, decide_eq_true_eq] at hkey
      exact handler_off (off key hkey.1) (.inr hkey.2)

theorem changeStatus_none (h : changeStatus now row usingKey status reason = none) : row.status = status := by
  simp only [changeStatus] at h
  split at h
  · exact (‹_ ∧ _›).1
  · split at h <;> cases h

theorem changeStatus_some
    (hmulti : row.channelInfo.isMultiKey = true) (h : changeStatus now row usingKey status reason = some channel) :
    channel = handlerMultiKeyUpdate now row usingKey status reason := by
  simp only [changeStatus, hmulti, if_true] at h
  split at h
  · cases h
  · exact (Option.some.inj h).symm

theorem beginStatus_keysOff (inv : KeysOff s) (free : s.writer = none)
    (ok : UpToDate s (.beginStatus call now)) : KeysOff (s.beginStatus call now) := by
  have hwriter : ∀ writer ∈ s.writer, writer.channel.getKeys = s.row.getKeys ∧
      writer.channel.channelInfo.isMultiKey = true ∧
      ∀ key ∈ writer.call.remember (call.remember s.disabled), Off writer.channel key := by simp [free]
  obtain ⟨hcache, -⟩ | ⟨_, -, ⟨heq, hnone⟩ | ⟨_, hchange, heq⟩⟩ := beginStatus_cases s call now
  · simp [System.callCache, inv.memory] at hcache
  · have hcall : ∀ usingKey reason, call ≠ .disableChannel usingKey reason := by
      rintro _ _ rfl
      exact ok.1 (changeStatus_none hnone)
    rw [heq]
    exact ⟨inv.memory, inv.loaded, inv.multi, fun key hkey => inv.row key (remember_of_not_disable hcall hkey), hwriter⟩
  · obtain rfl := changeStatus_some inv.multi hchange
    obtain ⟨hkeys, hmulti, -⟩ := handler_spec now s.row call.usingKey call.reason call.status
    rw [heq]
    refine ⟨inv.memory, inv.loaded, inv.multi, inv.row, fun writer hwriter => ?_⟩
    obtain rfl := Option.some.inj hwriter
    exact ⟨hkeys, hmulti.trans inv.multi, fun key hkey => handler_remember inv.row ok hkey⟩

theorem answer_not_off {answer : NextKey} (current : Current row copy)
    (answers : Answers copy answer) : ¬Off row answer.key := by
  intro off
  exact current.off off answer.index answers.key answers.enabled

theorem nextKey_keysOff {k draw : Nat} (inv : KeysOff s) (free : s.writer = none)
    (current : Current s.row copy) : KeysOff (s.nextKey k copy draw) := by
  unfold System.nextKey
  split
  · exact inv
  rename_i answer hanswer
  have answers := getNextEnabledKey_answers (current.multi.trans inv.multi) hanswer
  split
  · exact ⟨inv.memory, inv.loaded, inv.multi, inv.row, inv.writer⟩
  rename_i saved hsaved
  obtain ⟨hmulti, hstatus⟩ := answers.saved saved hsaved
  refine ⟨inv.memory, inv.loaded, hmulti, fun key hkey => ?_, by simp [free]⟩
  refine (inv.row key hkey).of_same (getKeys_congr rfl rfl) ?_
  simp [saveChannelInfo, hstatus, current.statusList]

theorem keyStatuses_congr (hkeys : channel'.getKeys = channel.getKeys)
    (hstatus : channel'.channelInfo.multiKeyStatusList = channel.channelInfo.multiKeyStatusList) :
    keyStatuses channel' = keyStatuses channel := by
  simp [keyStatuses, hkeys, hstatus]

theorem without_subset {keys : List (String × ChannelStatus)} : without keys action ⊆ keys := by
  unfold without
  split
  · exact List.eraseIdx_subset
  · exact List.filter_subset_self _
  · exact List.Subset.refl _

theorem manage_off {row' : Channel} (inv : KeysOff s)
    (current : Current s.row copy) (distinct : ¬IsDeletion action → s.row.getKeys.Nodup)
    (separable : IsDeletion action → Separable ((without (keyStatuses s.row) action).map Prod.fst))
    (h : manageMultiKeys now s.row copy action = .ok row') : row'.keys = [] ∧ row'.channelInfo.isMultiKey = true ∧
      ∀ key ∈ rememberAction copy s.disabled action, Off row' key := by
  obtain ⟨hmulti, _, hchanged, hrow'⟩ := manage_ok h
  by_cases hdeletion : IsDeletion action
  · -- what is left after a deletion was there before it
    have hstatuses : keyStatuses copy = keyStatuses s.row := keyStatuses_congr current.getKeys current.statusList
    have hread := deletion_keyStatuses hdeletion inv.loaded (hstatuses ▸ separable hdeletion) h
    obtain ⟨_, hkept, -⟩ := deletion_kept hdeletion hchanged
    refine ⟨hrow' ▸ inv.loaded, ?_, fun key hkey => off_iff.mpr fun entry hentry => ?_⟩
    · rw [hrow', hkept]
      simp [update, updates, recount, Channel.keeping, hmulti]
    have hold : key ∈ s.disabled := by
      cases action with
      | deleteKey | deleteDisabledKeys => exact hkey
      | _ => exact hdeletion.elim
    rw [hread, hstatuses] at hentry
    exact off_iff.mp (inv.row key hold) entry (without_subset hentry)
  · obtain ⟨hkey, hchangedMulti, hlist⟩ := apply_spec hdeletion hchanged
    obtain ⟨hkeys, hnewMulti, hnew⟩ :=
      update_same_keys (hkey.trans current.key) inv.loaded (hchangedMulti.trans hmulti)
    refine ⟨hrow' ▸ inv.loaded, hrow' ▸ hnewMulti, fun key hremember i hi => ?_⟩
    rw [hrow', hkeys] at hi
    have hlt : i < s.row.getKeys.length := (List.getElem?_eq_some_iff.mp hi).1
    rw [hrow', getStatus, hnew i hlt, hlist]
    rw [← current.getKeys] at hi
    exact newStatuses_off (fun key hkey => current.off (inv.row key hkey)) (current.getKeys ▸ distinct hdeletion)
      hdeletion hremember hi

theorem step_keysOff {t : System} {e : WriterEvent} (ok : UpToDate s e) (inv : KeysOff s)
    (h : writerStep s e = some t) : KeysOff t := by
  cases effect_of_step h with
  | load => exact ⟨inv.memory, inv.loaded, inv.multi, inv.row, inv.writer⟩
  | reload hmemory => exact absurd (inv.memory.symm.trans hmemory) (by simp)
  | beginStatus free => exact beginStatus_keysOff inv free ok
  | @endStatus writer hwriter =>
    obtain ⟨hkeys, hmulti, hoff⟩ := inv.writer writer hwriter
    refine ⟨inv.memory, inv.loaded, by simp [saveStatusState, hmulti], fun key hkey => ?_, by simp⟩
    refine (hoff key hkey).of_same ((getKeys_congr rfl rfl).trans hkeys.symm) ?_
    simp [saveStatusState, hmulti]
  | tag =>
    refine ⟨inv.memory, inv.loaded, inv.multi, fun key hkey => ?_, fun writer hwriter => ?_⟩
    · exact (inv.row key hkey).of_same (getKeys_congr rfl rfl) fun _ _ => id
    · obtain ⟨hkeys, hmulti, hoff⟩ := inv.writer writer hwriter
      exact ⟨hkeys.trans (getKeys_congr rfl rfl), hmulti, hoff⟩
  | nextKey free _ hcopy => exact nextKey_keysOff inv free (ok _ hcopy)
  | @manage k now action copy free hcopy =>
    obtain ⟨current, distinct, separable⟩ := ok copy hcopy
    unfold System.manage
    split
    · exact inv
    · obtain ⟨hloaded, hmulti, hoff⟩ := manage_off inv current distinct separable ‹_›
      exact ⟨inv.memory, hloaded, hmulti, hoff, by simp [free]⟩

/-! ## A disabled key stays disabled -/

theorem handed_not_disabled {t : System} {e : WriterEvent} (ok : UpToDate s e) (inv : KeysOff s)
    (h : writerStep s e = some t) (hhanded : t.handed = key :: s.handed) : key ∉ s.disabled := by
  have same : ∀ handed, handed = s.handed → handed ≠ key :: s.handed := by
    rintro handed rfl heq
    simpa using congrArg List.length heq
  cases effect_of_step h with
  | load | reload => exact absurd hhanded (same _ rfl)
  | @beginStatus call now =>
    refine absurd hhanded (same _ ?_)
    obtain ⟨-, heq⟩ | ⟨_, -, ⟨heq, -⟩ | ⟨_, -, heq⟩⟩ := beginStatus_cases s call now <;> rw [heq]
  | endStatus | tag => exact absurd hhanded (same _ rfl)
  | @nextKey k draw copy free _ hcopy =>
    have current := ok copy hcopy
    unfold System.nextKey at hhanded
    split at hhanded
    · exact absurd hhanded (same _ rfl)
    rename_i answer hanswer
    have answers := getNextEnabledKey_answers (current.multi.trans inv.multi) hanswer
    have hkey : answer.key = key := by
      split at hhanded <;> exact (List.cons.inj hhanded).1
    rw [← hkey]
    exact fun hmem => answer_not_off current answers (inv.row _ hmem)
  | manage =>
    refine absurd hhanded (same _ ?_)
    unfold System.manage
    split <;> rfl

end NewApi.Channels
