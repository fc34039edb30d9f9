import NewApi.Code.Ability
import NewApi.Lib.Run

/-!
# The routing rows mirror the channels

A writer changes a channel and its rows alike, or writes the rows anew.
-/

namespace NewApi.Channels.Mirror

open Table Code.Channels Run

/-! ## What a mirror is -/

def pairs (channel : Channel) : List (String × String) := namePairs channel.getModels channel.groupNames

def Carries (channel : Channel) (row : AbilityRow) : Prop :=
  row.enabled = decide (channel.status = .enabled) ∧ row.priority.getD 0 = channel.getPriority ∧
    row.weight = UInt64.ofNat (channel.weight.getD 0) ∧ row.tag = channel.tag

structure MirrorsAt (t : AbilityTable) (channel : Channel) : Prop where
  carries : ∀ row ∈ t.rows, row.channelId = channel.id → Carries channel row
  covers : ∀ pair, pair ∈ pairs channel ↔ ∃ row ∈ t.rows, row.channelId = channel.id ∧ (row.group, row.model) = pair

/-- Two pairs are one where a group name has the separator in it. -/
def KeysDistinct (channel : Channel) : Prop :=
  ∀ p ∈ pairs channel, ∀ q ∈ pairs channel, abilitySetKey p = abilitySetKey q → p = q

instance (channel : Channel) : Decidable (KeysDistinct channel) := by unfold KeysDistinct; infer_instance

structure Mirrors (s : Routing) : Prop where
  at_channel : ∀ channel ∈ s.channels.rows, MirrorsAt s.abilities channel
  distinct : ∀ channel ∈ s.channels.rows, KeysDistinct channel
  owned : ∀ row ∈ s.abilities.rows, ∃ channel ∈ s.channels.rows, channel.id = row.channelId

theorem MirrorsAt.count {t : AbilityTable} {channel : Channel} (h : MirrorsAt t channel) (pair : String × String) :
    (t.rows.filter fun row => row.channelId = channel.id ∧ (row.group, row.model) = pair).length =
      if pair ∈ pairs channel then 1 else 0 := by
  by_cases hpair : pair ∈ pairs channel
  · obtain ⟨row, hrow, hid, rfl⟩ := (h.covers pair).mp hpair
    have hkey : t.rows.filter (fun r => r.channelId = channel.id ∧ (r.group, r.model) = (row.group, row.model)) =
        t.rows.filter fun r => r.key = row.key := by
      apply List.filter_congr
      intro r _
      simp only [AbilityRow.key, Prod.mk.injEq, hid, decide_eq_decide]
      tauto
    rw [if_pos hpair, hkey, filter_key_eq t.nodup hrow]
    rfl
  · rw [if_neg hpair, List.length_eq_zero_iff, List.filter_eq_nil_iff]
    intro row hrow hat
    rw [decide_eq_true_eq] at hat
    exact hpair ((h.covers pair).mpr ⟨row, hrow, hat⟩)

/-! ## Rows that are made anew -/

theorem mem_of_mem_distinctPairs {p : String × String} {ps : List (String × String)} {abilitySet : List String}
    (h : p ∈ distinctPairs ps abilitySet) : p ∈ ps ∧ abilitySetKey p ∉ abilitySet := by
  induction ps generalizing abilitySet with
  | nil => simp [distinctPairs] at h
  | cons q rest ih =>
    unfold distinctPairs at h
    split at h
    · obtain ⟨hmem, hnew⟩ := ih h
      exact ⟨List.mem_cons_of_mem _ hmem, hnew⟩
    rename_i hq
    rcases List.mem_cons.mp h with rfl | hrest
    · exact ⟨List.mem_cons_self, hq⟩
    · obtain ⟨hmem, hnew⟩ := ih hrest
      exact ⟨List.mem_cons_of_mem _ hmem, fun hin => hnew (List.mem_cons_of_mem _ hin)⟩

theorem distinctPairs_nodup (ps : List (String × String)) (abilitySet : List String) :
    (distinctPairs ps abilitySet).Nodup := by
  induction ps generalizing abilitySet with
  | nil => simp [distinctPairs]
  | cons q rest ih =>
    unfold distinctPairs
    split
    · exact ih abilitySet
    · refine List.nodup_cons.mpr ⟨fun hmem => ?_, ih _⟩
      exact (mem_of_mem_distinctPairs hmem).2 List.mem_cons_self

theorem mem_distinctPairs {p : String × String} {ps : List (String × String)} {abilitySet : List String}
    (hinj : ∀ q ∈ ps, abilitySetKey p = abilitySetKey q → p = q) (hp : p ∈ ps) (hnew : abilitySetKey p ∉ abilitySet) :
    p ∈ distinctPairs ps abilitySet := by
  induction ps generalizing abilitySet with
  | nil => simp at hp
  | cons q rest ih =>
    have hrest : ∀ q ∈ rest, abilitySetKey p = abilitySetKey q → p = q :=
      fun q hq => hinj q (List.mem_cons_of_mem _ hq)
    by_cases hpq : p = q
    · subst hpq
      unfold distinctPairs
      rw [if_neg hnew]
      exact List.mem_cons_self
    · have hmem : p ∈ rest := (List.mem_cons.mp hp).resolve_left hpq
      have hkey : abilitySetKey p ≠ abilitySetKey q := fun h => hpq (hinj q List.mem_cons_self h)
      unfold distinctPairs
      split
      · exact ih hrest hmem hnew
      refine List.mem_cons_of_mem _ (ih hrest hmem ?_)
      intro hin
      rcases List.mem_cons.mp hin with heq | hin
      · exact hkey heq
      · exact hnew hin

theorem ofInt_getWeight (channel : Channel) :
    UInt64.ofInt channel.getWeight = UInt64.ofNat (channel.weight.getD 0) := by
  have hmod : channel.getWeight % 2 ^ 64 = ((channel.weight.getD 0 % 2 ^ 64 : Nat) : Int) := by
    unfold Channel.getWeight GoTime.wrap64
    rw [Int.natCast_mod]
    exact Int.bmod_emod
  unfold UInt64.ofInt
  rw [hmod, Int.toNat_natCast]
  apply UInt64.toNat_inj.mp
  rw [UInt64.toNat_ofNat', UInt64.toNat_ofNat', Nat.mod_mod]

theorem carries_ability (channel : Channel) (pair : String × String) : Carries channel (channel.ability pair) :=
  ⟨rfl, rfl, ofInt_getWeight channel, rfl⟩

theorem abilitiesFor_nodup (channel : Channel) (models : List String) :
    ((channel.abilitiesFor models).map AbilityRow.key).Nodup := by
  unfold Channel.abilitiesFor
  rw [List.map_map]
  refine (distinctPairs_nodup _ _).map ?_
  intro p q h
  simp only [Function.comp, AbilityRow.key, Channel.ability, Prod.mk.injEq, and_true] at h
  exact Prod.ext h.1 h.2

theorem channelId_of_mem_abilitiesFor {channel : Channel} {models : List String} {row : AbilityRow}
    (h : row ∈ channel.abilitiesFor models) : row.channelId = channel.id := by
  obtain ⟨_, -, rfl⟩ := List.mem_map.mp h
  rfl

section

variable {t : AbilityTable} {channel : Channel} (hnone : ∀ row ∈ t.rows, row.channelId ≠ channel.id)
include hnone

theorem insertAll_abilitiesFor {models : List String} :
    (t.insertAll (channel.abilitiesFor models)).rows = t.rows ++ channel.abilitiesFor models := by
  apply Keyed.rows_insertAll
  · intro row hrow hin
    obtain ⟨old, hold, hkey⟩ := List.mem_map.mp hin
    simp only [AbilityRow.key, Prod.mk.injEq] at hkey
    exact hnone old hold (hkey.2.2.trans (channelId_of_mem_abilitiesFor hrow))
  · exact abilitiesFor_nodup channel models

theorem mirrorsAt_insertAll (hdistinct : KeysDistinct channel)
    : MirrorsAt (t.insertAll (channel.abilitiesFor channel.getModels)) channel := by
  have hrows : (t.insertAll (channel.abilitiesFor channel.getModels)).rows =
      t.rows ++ channel.abilitiesFor channel.getModels := insertAll_abilitiesFor hnone
  constructor
  · intro row hrow hid
    rw [hrows, List.mem_append] at hrow
    rcases hrow with hold | hnew
    · exact absurd hid (hnone row hold)
    · obtain ⟨pair, -, rfl⟩ := List.mem_map.mp hnew
      exact carries_ability channel pair
  · intro pair
    rw [hrows]
    constructor
    · intro hpair
      have hmem := mem_distinctPairs (hdistinct pair hpair) hpair (List.not_mem_nil (a := abilitySetKey pair))
      exact ⟨channel.ability pair, List.mem_append_right _ (List.mem_map_of_mem hmem), rfl, rfl⟩
    rintro ⟨row, hrow, hid, rfl⟩
    rcases List.mem_append.mp hrow with hold | hnew
    · exact absurd hid (hnone row hold)
    · obtain ⟨_, hpair, rfl⟩ := List.mem_map.mp hnew
      exact (mem_of_mem_distinctPairs hpair).1

end

theorem mirrorsAt_congr {t u : AbilityTable} {channel : Channel}
    (hrows : ∀ row, row.channelId = channel.id → (row ∈ u.rows ↔ row ∈ t.rows)) (h : MirrorsAt t channel) :
    MirrorsAt u channel := by
  constructor
  · intro row hrow hid
    exact h.carries row ((hrows row hid).mp hrow) hid
  intro pair
  rw [h.covers pair]
  constructor
  · rintro ⟨row, hrow, hid, hpair⟩
    exact ⟨row, (hrows row hid).mpr hrow, hid, hpair⟩
  · rintro ⟨row, hrow, hid, hpair⟩
    exact ⟨row, (hrows row hid).mp hrow, hid, hpair⟩

section Rebuild

variable {t : AbilityTable} {channel : Channel}

theorem delete_none (row : AbilityRow) (h : row ∈ (t.delete fun row => row.channelId = channel.id).rows) :
    row.channelId ≠ channel.id := by
  simpa using (List.mem_filter.mp h).2

theorem mem_updateAbilities (row : AbilityRow) : row ∈ (channel.updateAbilities t).rows ↔
      row ∈ t.rows ∧ row.channelId ≠ channel.id ∨ row ∈ channel.abilitiesFor channel.getModels := by
  unfold Channel.updateAbilities
  rw [insertAll_abilitiesFor delete_none, List.mem_append]
  simp [Keyed.delete]

theorem mirrorsAt_updateAbilities (hdistinct : KeysDistinct channel) :
    MirrorsAt (channel.updateAbilities t) channel := mirrorsAt_insertAll delete_none hdistinct

theorem mirrorsAt_updateAbilities_other {other : Channel} (hne : other.id ≠ channel.id) (h : MirrorsAt t other) :
    MirrorsAt (channel.updateAbilities t) other := by
  refine mirrorsAt_congr (fun row hid => ?_) h
  rw [mem_updateAbilities]
  constructor
  · rintro (⟨hrow, -⟩ | hnew)
    · exact hrow
    · exact absurd (hid.symm.trans (channelId_of_mem_abilitiesFor hnew)) hne
  · intro hrow
    exact Or.inl ⟨hrow, hid ▸ hne⟩

theorem mirrorsAt_foldl {channels : List Channel} (hdistinct : ∀ c ∈ channels, KeysDistinct c)
    (hnodup : (channels.map Channel.id).Nodup) (t : AbilityTable) {other : Channel}
    (h : other ∈ channels ∨ other.id ∉ channels.map Channel.id ∧ MirrorsAt t other) :
    MirrorsAt (channels.foldl (fun abilities c => c.updateAbilities abilities) t) other := by
  induction channels generalizing t with
  | nil =>
    rcases h with h | h
    · simp at h
    · exact h.2
  | cons c rest ih =>
    rw [List.map_cons, List.nodup_cons] at hnodup
    rw [List.foldl_cons]
    refine ih (fun c hc => hdistinct c (List.mem_cons_of_mem _ hc)) hnodup.2 _ ?_
    rcases h with h | ⟨hid, h⟩
    · rcases List.mem_cons.mp h with rfl | hrest
      · exact Or.inr ⟨hnodup.1, mirrorsAt_updateAbilities (hdistinct _ List.mem_cons_self)⟩
      · exact Or.inl hrest
    · rw [List.map_cons, List.mem_cons, not_or] at hid
      exact Or.inr ⟨hid.2, mirrorsAt_updateAbilities_other hid.1 h⟩

theorem owned_foldl {channels : List Channel} {row : AbilityRow}
    (h : row ∈ (channels.foldl (fun abilities c => c.updateAbilities abilities) t).rows) :
    row ∈ t.rows ∨ ∃ c ∈ channels, c.id = row.channelId := by
  induction channels generalizing t with
  | nil => exact Or.inl h
  | cons c rest ih =>
    rcases ih h with hrow | ⟨other, hother, hid⟩
    · rcases (mem_updateAbilities row).mp hrow with ⟨hold, -⟩ | hnew
      · exact Or.inl hold
      · exact Or.inr ⟨c, List.mem_cons_self, (channelId_of_mem_abilitiesFor hnew).symm⟩
    · exact Or.inr ⟨other, List.mem_cons_of_mem _ hother, hid⟩

end Rebuild

/-! ## Channels and rows that are changed alike -/

theorem pairs_congr {c d : Channel} (hmodels : c.models = d.models) (hgroup : c.group = d.group) :
    pairs c = pairs d := by
  unfold pairs Channel.getModels Channel.groupNames
  rw [hmodels, hgroup]

variable {s s' : Routing}

theorem Mirrors.update (h : Mirrors s) {p : Channel → Bool} {f : Channel → Channel}
    {q : AbilityRow → Bool} {g : AbilityRow → AbilityRow}
    (hchannels : s'.channels.rows = s.channels.rows.map fun c => if p c then f c else c)
    (habilities : s'.abilities.rows = s.abilities.rows.map fun row => if q row then g row else row)
    (hid : ∀ c, (f c).id = c.id) (hpairs : ∀ c, pairs (f c) = pairs c) (hkey : ∀ row, (g row).key = row.key)
    (hcarries : ∀ c ∈ s.channels.rows, ∀ row ∈ s.abilities.rows, row.channelId = c.id → Carries c row →
      p c = q row ∧ (p c = true → Carries (f c) (g row))) : Mirrors s' := by
  have hid' : ∀ c, (if p c then f c else c).id = c.id := fun c => by split <;> simp [hid]
  have hpairs' : ∀ c, pairs (if p c then f c else c) = pairs c := fun c => by split <;> simp [hpairs]
  have hrow : ∀ row, (if q row then g row else row).channelId = row.channelId ∧
      ((if q row then g row else row).group, (if q row then g row else row).model) = (row.group, row.model) := by
    intro row
    have hk := hkey row
    simp only [AbilityRow.key, Prod.mk.injEq] at hk
    split
    · exact ⟨hk.2.2, Prod.ext hk.1 hk.2.1⟩
    · exact ⟨rfl, rfl⟩
  constructor
  · intro c' hc'
    rw [hchannels] at hc'
    obtain ⟨c, hc, rfl⟩ := List.mem_map.mp hc'
    have hat := h.at_channel c hc
    constructor
    · intro row' hrow' hrowid
      rw [habilities] at hrow'
      obtain ⟨row, hmem, rfl⟩ := List.mem_map.mp hrow'
      rw [(hrow row).1, hid'] at hrowid
      obtain ⟨hsame, hnew⟩ := hcarries c hc row hmem hrowid (hat.carries row hmem hrowid)
      rw [← hsame]
      split
      · exact hnew ‹_›
      · exact hat.carries row hmem hrowid
    · intro pair
      rw [hpairs', hat.covers, habilities]
      constructor
      · rintro ⟨row, hmem, hrowid, hpair⟩
        exact ⟨_, List.mem_map_of_mem hmem, by rw [(hrow row).1, hid', hrowid], (hrow row).2.trans hpair⟩
      rintro ⟨row', hmem', hrowid, hpair⟩
      obtain ⟨row, hmem, rfl⟩ := List.mem_map.mp hmem'
      rw [(hrow row).1, hid'] at hrowid
      exact ⟨row, hmem, hrowid, (hrow row).2.symm.trans hpair⟩
  · intro c' hc'
    rw [hchannels] at hc'
    obtain ⟨c, hc, rfl⟩ := List.mem_map.mp hc'
    have hdistinct := h.distinct c hc
    unfold KeysDistinct at hdistinct ⊢
    rwa [hpairs']
  · intro row' hrow'
    rw [habilities] at hrow'
    obtain ⟨row, hmem, rfl⟩ := List.mem_map.mp hrow'
    obtain ⟨c, hc, howner⟩ := h.owned row hmem
    refine ⟨if p c then f c else c, ?_, by rw [hid', (hrow row).1, howner]⟩
    rw [hchannels]
    exact List.mem_map_of_mem hc

theorem find_unique {channels : Table.Keyed Channel.id} {c channel : Channel} (hc : c ∈ channels.rows)
    (hfind : channels.find c.id = some channel) : c = channel :=
  Option.some.inj ((Keyed.find_of_mem hc).symm.trans hfind)

/-! ## Status -/

theorem hasEnabledMultiKey_setKeyStatus (now : Int) (reason : String) {keys : List String} {keyIndex : Nat}
    (hindex : keyIndex < keys.length) (info : ChannelInfo) :
    hasEnabledMultiKey keys (setKeyStatus now reason .enabled keyIndex info).multiKeyStatusList = true := by
  unfold hasEnabledMultiKey setKeyStatus
  rw [List.any_eq_true]
  exact ⟨keyIndex, List.mem_range.mpr hindex, by simp [getStatus]⟩

theorem handlerMultiKeyUpdate_enabled (now : Int) (channel : Channel) (usingKey : String) (status : ChannelStatus)
    (reason : String) (hne : channel.status ≠ (handlerMultiKeyUpdate now channel usingKey status reason).status) :
    (handlerMultiKeyUpdate now channel usingKey status reason).status = .enabled ↔ status = .enabled := by
  unfold handlerMultiKeyUpdate at hne ⊢
  dsimp only at hne ⊢
  split at hne
  · rename_i hkeys
    rw [if_pos hkeys]
  rename_i hkeys
  rw [if_neg hkeys]
  split at hne
  · split at hne
    · exact absurd rfl hne
    · rename_i hempty
      rw [if_neg hempty]
      rfl
  rename_i keyIndex hfind
  obtain ⟨hindex, -⟩ := List.findIdx?_eq_some_iff_getElem.mp hfind
  split at hne
  · rename_i hnone
    rw [if_pos hnone]
    have hstatus : status ≠ .enabled := by
      rintro rfl
      rw [hasEnabledMultiKey_setKeyStatus now reason hindex] at hnone
      exact absurd hnone (by decide)
    simp [Channel.setStatusInfo, hstatus]
  · rename_i hsome
    rw [if_neg hsome]
    split at hne
    · rename_i hstatus
      simp [hstatus]
    · exact absurd rfl hne

theorem changeStatus_enabled {now : Int} {channel changed : Channel} {usingKey : String} {status : ChannelStatus}
    {reason : String} (h : changeStatus now channel usingKey status reason = some changed)
    (hupdate : channel.channelInfo.isMultiKey = false ∨ channel.status ≠ changed.status) :
    changed.status = .enabled ↔ status = .enabled := by
  unfold changeStatus at h
  dsimp only at h
  split at h
  · simp at h
  split at h
  · rename_i hmulti
    obtain rfl := Option.some.inj h
    rcases hupdate with hsingle | hne
    · rw [hmulti] at hsingle
      exact absurd hsingle (by decide)
    · exact handlerMultiKeyUpdate_enabled now channel usingKey status reason hne
  · obtain rfl := Option.some.inj h
    rfl

theorem Mirrors.updateChannelStatus (h : Mirrors s) (now : Int) (cacheStops : Bool) (channelId : Int)
    (usingKey : String) (status : ChannelStatus) (reason : String) :
    Mirrors (s.updateChannelStatus now cacheStops channelId usingKey status reason).2 := by
  unfold Routing.updateChannelStatus
  split
  · exact h
  split
  · exact h
  rename_i channel hfind
  split
  · exact h
  rename_i changed hchange
  dsimp only
  by_cases hupdate : channel.channelInfo.isMultiKey = false ∨ channel.status ≠ changed.status
  · rw [if_pos (by simpa using hupdate)]
    have henabled := changeStatus_enabled hchange hupdate
    refine h.update rfl rfl (fun _ => rfl) (fun _ => pairs_congr rfl rfl) (fun _ => rfl) ?_
    rintro c - row - hid ⟨-, hpriority, hweight, htag⟩
    exact ⟨by rw [hid], fun _ => ⟨by simp [saveStatusState, henabled], hpriority, hweight, htag⟩⟩
  · rw [if_neg (by simpa using hupdate)]
    push Not at hupdate
    -- the status stays, and so may the rows
    refine h.update (q := fun row => row.channelId = channelId) (g := id) rfl (by simp) (fun _ => rfl)
      (fun _ => pairs_congr rfl rfl) (fun _ => rfl) ?_
    rintro c hc _ - hid ⟨henabled, hpriority, hweight, htag⟩
    refine ⟨by rw [hid], fun hc' => ?_⟩
    rw [decide_eq_true_eq] at hc'
    obtain rfl := find_unique hc (hc' ▸ hfind)
    exact ⟨by simpa [saveStatusState, ← hupdate.2] using henabled, hpriority, hweight, htag⟩

theorem Mirrors.setStatusByTag (h : Mirrors s) (tag : String) (status : ChannelStatus) :
    Mirrors (s.setStatusByTag tag status) := by
  refine h.update rfl rfl (fun _ => rfl) (fun _ => pairs_congr rfl rfl) (fun _ => rfl) ?_
  rintro c - _ - - ⟨-, hpriority, hweight, htag⟩
  exact ⟨by rw [htag], fun _ => ⟨rfl, hpriority, hweight, htag⟩⟩

theorem Mirrors.disableExhausted (h : Mirrors s) (now : Int) (cacheStops : Int → Bool)
    (channels : List Channel) : Mirrors (Routing.disableExhausted now cacheStops channels s).2 := by
  induction channels generalizing s with
  | nil => exact h
  | cons channel rest ih =>
    unfold Routing.disableExhausted
    have hnext := h.updateChannelStatus now (cacheStops channel.id) channel.id "" .manuallyDisabled
      "manual tag operation"
    split
    · dsimp only
      split
      · exact ih hnext
      · exact hnext
    · exact ih h

theorem Mirrors.disableChannelByTag (h : Mirrors s) (now : Int) (cacheStops : Int → Bool)
    (tag : String) : Mirrors (s.disableChannelByTag now cacheStops tag) := by
  unfold Routing.disableChannelByTag
  dsimp only
  split
  · exact (h.disableExhausted now cacheStops _).setStatusByTag tag .manuallyDisabled
  · exact h.disableExhausted now cacheStops _

/-! ## Priorities -/

theorem Mirrors.reorderChannelPriority (h : Mirrors s) (changes : List ChannelPriorityChange) :
    Mirrors (s.reorderChannelPriority changes) := by
  induction changes generalizing s with
  | nil => exact h
  | cons change rest ih =>
    refine ih (h.update rfl rfl (fun _ => rfl) (fun _ => pairs_congr rfl rfl) (fun _ => rfl) ?_)
    rintro c - _ - hid ⟨henabled, -, hweight, htag⟩
    exact ⟨by rw [hid], fun _ => ⟨henabled, rfl, hweight, htag⟩⟩

/-! ## Inserts and edits -/

theorem Mirrors.insert (h : Mirrors s) {channel : Channel}
    (hmodels : splitNames channel.models = channel.getModels) (hdistinct : KeysDistinct channel.withDefaults) :
    Mirrors (s.insert channel) := by
  unfold Routing.insert
  split
  · exact h
  rename_i hnew
  have hchannels : (s.channels.insert channel.withDefaults).rows = s.channels.rows ++ [channel.withDefaults] :=
    Keyed.rows_insert hnew
  have hnone : ∀ row ∈ s.abilities.rows, row.channelId ≠ channel.withDefaults.id := by
    intro row hrow hid
    obtain ⟨c, hc, howner⟩ := h.owned row hrow
    exact hnew (List.mem_map.mpr ⟨c, hc, howner.trans hid⟩)
  have hadd : channel.withDefaults.addAbilities s.abilities =
      s.abilities.insertAll (channel.withDefaults.abilitiesFor channel.withDefaults.getModels) := by
    unfold Channel.addAbilities
    rw [show channel.withDefaults.models = channel.models from rfl, hmodels]
    rfl
  have hrows : (s.abilities.insertAll (channel.withDefaults.abilitiesFor channel.withDefaults.getModels)).rows =
      s.abilities.rows ++ channel.withDefaults.abilitiesFor channel.withDefaults.getModels :=
    insertAll_abilitiesFor hnone
  rw [hadd]
  constructor
  · intro c hc
    rw [hchannels, List.mem_append, List.mem_singleton] at hc
    rcases hc with hc | rfl
    · refine mirrorsAt_congr (fun row hid => ?_) (h.at_channel c hc)
      rw [hrows, List.mem_append]
      refine ⟨fun hrow => hrow.resolve_right fun hrow => ?_, Or.inl⟩
      have howner := channelId_of_mem_abilitiesFor hrow
      exact hnew (List.mem_map.mpr ⟨c, hc, hid.symm.trans howner⟩)
    · exact mirrorsAt_insertAll hnone hdistinct
  · intro c hc
    rw [hchannels, List.mem_append, List.mem_singleton] at hc
    rcases hc with hc | rfl
    · exact h.distinct c hc
    · exact hdistinct
  · intro row hrow
    rw [hrows, List.mem_append] at hrow
    rw [hchannels]
    rcases hrow with hrow | hrow
    · obtain ⟨c, hc, howner⟩ := h.owned row hrow
      exact ⟨c, List.mem_append_left _ hc, howner⟩
    · exact ⟨_, List.mem_append_right _ (List.mem_singleton.mpr rfl), (channelId_of_mem_abilitiesFor hrow).symm⟩

/-- The rows of every changed channel are made anew. -/
theorem Mirrors.rebuild (h : Mirrors s) {p : Channel → Bool} {f : Channel → Channel}
    {channels : List Channel} (hchannels : s'.channels.rows = s.channels.rows.map fun c => if p c then f c else c)
    (habilities : s'.abilities = channels.foldl (fun abilities c => c.updateAbilities abilities) s.abilities)
    (hid : ∀ c, (f c).id = c.id) (hsub : channels.Sublist s'.channels.rows)
    (hchanged : ∀ c ∈ s.channels.rows, p c = true → f c ∈ channels ∧ KeysDistinct (f c)) : Mirrors s' := by
  have hkept : ∀ c' ∈ s'.channels.rows, c' ∈ channels ∧ KeysDistinct c' ∨ c' ∈ s.channels.rows := by
    intro c' hc'
    rw [hchannels] at hc'
    obtain ⟨c, hc, rfl⟩ := List.mem_map.mp hc'
    split
    · exact Or.inl (hchanged c hc ‹_›)
    · exact Or.inr hc
  have hdistinct : ∀ c' ∈ s'.channels.rows, KeysDistinct c' := by
    intro c' hc'
    rcases hkept c' hc' with ⟨-, hnew⟩ | hold
    · exact hnew
    · exact h.distinct c' hold
  constructor
  · intro c' hc'
    rw [habilities]
    refine mirrorsAt_foldl (fun c hc => hdistinct c (hsub.subset hc))
      (s'.channels.nodup.sublist (hsub.map Channel.id)) _ ?_
    by_cases hin : c' ∈ channels
    · exact Or.inl hin
    refine Or.inr ⟨fun hmem => ?_, h.at_channel c' ((hkept c' hc').resolve_left fun hnew => hin hnew.1)⟩
    obtain ⟨c, hc, hsame⟩ := List.mem_map.mp hmem
    have hfind := Keyed.find_of_mem (hsub.subset hc)
    rw [hsame] at hfind
    exact hin (find_unique hc' hfind ▸ hc)
  · exact hdistinct
  intro row hrow
  rw [habilities] at hrow
  rcases owned_foldl hrow with hold | ⟨c, hc, howner⟩
  · obtain ⟨c, hc, howner⟩ := h.owned row hold
    refine ⟨if p c then f c else c, ?_, ?_⟩
    · rw [hchannels]
      exact List.mem_map_of_mem hc
    · split
      · rw [hid, howner]
      · exact howner
  · exact ⟨c, hsub.subset hc, howner⟩

theorem Mirrors.edit (h : Mirrors s) {channel : Channel}
    (hdistinct : ∀ row, s.channels.find channel.id = some row → KeysDistinct (Code.Channels.update row channel)) :
    Mirrors (s.update channel) := by
  unfold Routing.update
  split
  · exact h
  rename_i row hfind
  have hrow : row ∈ s.channels.rows := mem_of_lookup hfind
  have hid : row.id = channel.id := key_of_lookup hfind
  have hrows : (Code.Channels.update row channel).updateAbilities s.abilities =
      [Code.Channels.update row channel].foldl (fun abilities c => c.updateAbilities abilities) s.abilities := rfl
  refine h.rebuild rfl hrows (fun _ => rfl) ?_ ?_
  · rw [List.singleton_sublist]
    refine List.mem_map.mpr ⟨row, hrow, ?_⟩
    rw [if_pos (by simpa using hid)]
  intro c hc hp
  rw [decide_eq_true_eq] at hp
  obtain rfl := find_unique hc (hp ▸ hfind)
  exact ⟨List.mem_singleton.mpr rfl, hdistinct c hfind⟩

theorem Mirrors.editChannelByTag (h : Mirrors s) {tag : String} {e : TagEdit}
    (hdistinct : e.shouldReCreateAbilities = true → ∀ c ∈ s.channels.rows, c.tag = some tag → KeysDistinct (e.apply c))
    (hweight : e.shouldReCreateAbilities = false → ∀ c ∈ s.channels.rows, c.tag = some tag →
      ∀ weight, e.weight = some weight → UInt64.ofNat weight = 0 → UInt64.ofNat (c.weight.getD 0) = 0) :
    Mirrors (s.editChannelByTag tag e) := by
  unfold Routing.editChannelByTag
  dsimp only
  cases hrebuild : e.shouldReCreateAbilities with
  | true =>
    rw [if_pos rfl]
    refine h.rebuild rfl rfl (fun _ => rfl) List.filter_sublist ?_
    intro c hc hp
    have htag : c.tag = some tag := by simpa using hp
    refine ⟨List.mem_filter.mpr ⟨List.mem_map.mpr ⟨c, hc, by rw [if_pos hp]⟩, ?_⟩, hdistinct hrebuild c hc htag⟩
    rw [decide_eq_true_eq]
    simp only [TagEdit.apply, TagEdit.updatedTag, htag]
    cases e.newTag <;> rfl
  | false =>
    rw [if_neg (by decide)]
    have hnames : e.models.getD "" = "" ∧ e.group.getD "" = "" := by
      simpa [TagEdit.shouldReCreateAbilities] using hrebuild
    refine h.update rfl rfl (fun _ => rfl) (fun c => ?_) (fun _ => rfl) ?_
    · exact pairs_congr (by simp [TagEdit.apply, hnames.1]) (by simp [TagEdit.apply, hnames.2])
    rintro c hc _ - - ⟨henabled, hpriority, hrowWeight, hrowTag⟩
    refine ⟨by rw [hrowTag], fun hp => ⟨henabled, ?_, ?_, ?_⟩⟩
    · cases hnew : e.priority <;> simp [TagEdit.apply, Channel.getPriority, hnew] at hpriority ⊢
      exact hpriority
    · have hzero := hweight hrebuild c hc (by simpa using hp)
      cases hnew : e.weight with
      | none => simp [TagEdit.apply, hnew, hrowWeight]
      | some weight =>
        have hzero' := hzero weight hnew
        by_cases hw : UInt64.ofNat weight = 0
        · simp [TagEdit.apply, hnew, hw, hrowWeight, hzero' hw]
        · simp [TagEdit.apply, hnew, hw]
    · simp [TagEdit.apply, hrowTag]

/-! ## Runs -/

/-- Names split as they are read, pairs differ, and no edit by tag sets the weight alone to zero. -/
def Plain (s : Routing) : Operation → Prop
  | .insert channel => splitNames channel.models = channel.getModels ∧ KeysDistinct channel.withDefaults
  | .update channel => ∀ row, s.channels.find channel.id = some row → KeysDistinct (Code.Channels.update row channel)
  | .editTag tag e => ∀ c ∈ s.channels.rows, c.tag = some tag →
      (e.shouldReCreateAbilities = true → KeysDistinct (e.apply c)) ∧
      (e.shouldReCreateAbilities = false → ∀ weight, e.weight = some weight → UInt64.ofNat weight = 0 →
        UInt64.ofNat (c.weight.getD 0) = 0)
  | .updateStatus .. | .enableTag _ | .disableTag .. | .reorder _ => True

theorem Mirrors.step (h : Mirrors s) {operation : Operation} (hplain : Plain s operation) :
    Mirrors (s.step operation) := by
  cases operation with
  | insert => exact h.insert hplain.1 hplain.2
  | update => exact h.edit hplain
  | updateStatus now cacheStops channelId usingKey status reason =>
    exact h.updateChannelStatus now cacheStops channelId usingKey status reason
  | enableTag tag => exact h.setStatusByTag tag .enabled
  | disableTag now cacheStops tag => exact h.disableChannelByTag now cacheStops tag
  | editTag =>
    exact h.editChannelByTag (fun hrebuild c hc htag => (hplain c hc htag).1 hrebuild)
      fun hrebuild c hc htag => (hplain c hc htag).2 hrebuild
  | reorder changes => exact h.reorderChannelPriority changes

def routingStep (s : Routing) (operation : Operation) : Option Routing := some (s.step operation)

theorem mirrors_run {operations : List Operation} (h : Mirrors s)
    (run : Steps routingStep Plain s operations s') : Mirrors s' := by
  refine run.invariant (fun s operation t hplain hs hstep => ?_) h
  obtain rfl := Option.some.inj hstep
  exact hs.step hplain

def emptyRouting : Routing := ⟨⟨[], List.nodup_nil⟩, ⟨[], List.nodup_nil⟩⟩

theorem mirrors_empty : Mirrors emptyRouting :=
  ⟨fun _ h => absurd h List.not_mem_nil, fun _ h => absurd h List.not_mem_nil, fun _ h => absurd h List.not_mem_nil⟩

def taggedChannel : Channel :=
  ⟨1, "key", .enabled, some 5, "gpt-4o,o1", "default,vip", some 2, some "east", none,
    ⟨false, 0, fun _ => none, fun _ => none, fun _ => none, 0, .other ""⟩, []⟩

def taggedOperations : List Operation :=
  [.insert taggedChannel, .editTag "east" ⟨none, none, none, none, some 7⟩, .disableTag 10 (fun _ => false) "east",
    .reorder [⟨1, some 4⟩]]

theorem names_matter :
    (∃ row ∈ (emptyRouting.step (.insert { taggedChannel with models := "o1," })).abilities.rows,
      (row.group, row.model) ∉ pairs { taggedChannel with models := "o1," }) ∧
    ∃ pair ∈ pairs { taggedChannel with models := "c,b|c", group := "a|b,a" },
      ∀ row ∈ (emptyRouting.step (.insert { taggedChannel with models := "c,b|c", group := "a|b,a" })).abilities.rows,
        (row.group, row.model) ≠ pair := by
  constructor <;> decide +kernel

end NewApi.Channels.Mirror

