import Mathlib.Tactic.Ring
import NewApi.Channels.Disabled
import NewApi.Lib.Shares

/-!
# The weighted choice

Each channel of one priority owns as many values of the draw as its effective weight, where the sum fits into 64 bits.
-/

namespace NewApi.Channels.WeightedChoice

open GoTime Code.Channels Shares

variable {channel : Channel} {channels : List Channel}

/-! ## Effective weights -/

def weightOf (channel : Channel) : Nat := channel.weight.getD 0

def factors (channels : List Channel) : Nat × Nat :=
  if total weightOf channels = 0 then (1, 100)
  else if total weightOf channels / channels.length < 10 then (100, 0)
  else (1, 0)

def effectiveWeight (channels : List Channel) (channel : Channel) : Nat :=
  weightOf channel * (factors channels).1 + (factors channels).2

def FitsInt (channels : List Channel) : Prop := total (effectiveWeight channels) channels < 2 ^ 63

theorem total_linear (factor adjustment : Nat) :
    total (fun channel => weightOf channel * factor + adjustment) channels =
      total weightOf channels * factor + channels.length * adjustment := by
  induction channels with
  | nil => simp [total]
  | cons first rest ih =>
    simp only [total, ih, List.length_cons]
    ring

theorem total_effectiveWeight (channels : List Channel) : total (effectiveWeight channels) channels =
    total weightOf channels * (factors channels).1 + channels.length * (factors channels).2 :=
  total_linear _ _

theorem total_weightOf_le (channels : List Channel) :
    total weightOf channels ≤ total (effectiveWeight channels) channels := by
  rw [total_effectiveWeight]
  unfold factors
  split
  · omega
  · split <;> dsimp only <;> omega

theorem getWeight_eq (hfits : FitsInt channels) (h : channel ∈ channels) : channel.getWeight = weightOf channel := by
  have hle := share_le_total weightOf h
  have hsum := total_weightOf_le channels
  unfold FitsInt at hfits
  exact wrap64_eq (by simp only [weightOf] at *; omega) (by simp only [weightOf] at *; omega)

theorem sum_eq {sum : Int} (hnonneg : 0 ≤ sum) (hroom : sum + total weightOf channels < 2 ^ 63)
    (hweight : ∀ channel ∈ channels, channel.getWeight = weightOf channel) :
    channels.foldl (fun sum channel => wrap64 (sum + channel.getWeight)) sum = sum + total weightOf channels := by
  induction channels generalizing sum with
  | nil => simp [total]
  | cons first rest ih =>
    simp only [total, Nat.cast_add] at hroom ⊢
    rw [List.foldl_cons, hweight first List.mem_cons_self, wrap64_eq (by omega) (by omega),
      ih (by omega) (by omega) fun channel h => hweight channel (List.mem_cons_of_mem _ h)]
    omega

theorem pickByWeight_eq {factor adjustment draw : Nat} (hdraw : draw < 2 ^ 63)
    (hroom : total (fun channel => weightOf channel * factor + adjustment) channels < 2 ^ 63)
    (hweight : ∀ channel ∈ channels, channel.getWeight = weightOf channel)
    (hchosen : pick (fun channel => weightOf channel * factor + adjustment) channels draw = some channel) :
    pickByWeight factor adjustment draw channels = .ok channel := by
  induction channels generalizing draw with
  | nil => cases hchosen
  | cons first rest ih =>
    have hfirst := hweight first List.mem_cons_self
    simp only [total] at hroom
    have hproduct : wrap64 (first.getWeight * factor) = (weightOf first * factor : Nat) := by
      rw [hfirst, ← Nat.cast_mul]
      exact wrap64_eq (by omega) (by omega)
    have hshare : wrap64 ((weightOf first * factor : Nat) + (adjustment : Int)) =
        (weightOf first * factor + adjustment : Nat) := by
      rw [← Nat.cast_add]
      exact wrap64_eq (by omega) (by omega)
    have hleft : wrap64 ((draw : Int) - (weightOf first * factor + adjustment : Nat)) =
        (draw : Int) - (weightOf first * factor + adjustment : Nat) := wrap64_eq (by omega) (by omega)
    simp only [pickByWeight, hproduct, hshare, hleft]
    simp only [pick] at hchosen
    split at hchosen
    · rw [if_pos (by omega)]
      cases hchosen
      rfl
    · rw [if_neg (by omega), ← Nat.cast_sub (by omega)]
      exact ih (by omega) (by omega) (fun channel h => hweight channel (List.mem_cons_of_mem _ h)) hchosen

theorem smoothing_eq (hfits : FitsInt channels) (hne : channels ≠ []) :
    ∃ sumWeight, smoothing channels = (sumWeight, ((factors channels).1 : Int), ((factors channels).2 : Int)) ∧
      wrap64 (sumWeight * (factors channels).1) = total (effectiveWeight channels) channels := by
  have hsum : channels.foldl (fun sum channel => wrap64 (sum + channel.getWeight)) 0 = total weightOf channels := by
    have hle := total_weightOf_le channels
    unfold FitsInt at hfits
    rw [sum_eq le_rfl (by omega) fun channel h => getWeight_eq hfits h, zero_add]
  have htotal := total_effectiveWeight channels
  have hpos : 0 < channels.length := List.length_pos_of_ne_nil hne
  unfold FitsInt at hfits
  unfold smoothing
  simp only [hsum, Nat.cast_eq_zero]
  by_cases hzero : total weightOf channels = 0
  · have hfactors : factors channels = (1, 100) := if_pos hzero
    rw [hfactors] at htotal ⊢
    rw [if_pos hzero]
    have hroom : wrap64 ((channels.length : Int) * 100) = (channels.length : Int) * 100 :=
      wrap64_eq (by omega) (by omega)
    refine ⟨_, rfl, ?_⟩
    rw [hroom, Nat.cast_one, mul_one, hroom]
    omega
  · have hdiv : (total weightOf channels : Int).tdiv channels.length < 10 ↔
        total weightOf channels / channels.length < 10 := by
      rw [← Int.ofNat_tdiv]
      omega
    rw [if_neg hzero]
    by_cases hsmall : total weightOf channels / channels.length < 10
    · have hfactors : factors channels = (100, 0) := by rw [factors, if_neg hzero, if_pos hsmall]
      rw [hfactors] at htotal ⊢
      rw [if_pos (hdiv.mpr hsmall)]
      refine ⟨_, rfl, ?_⟩
      rw [wrap64_eq (by omega) (by omega)]
      omega
    · have hfactors : factors channels = (1, 0) := by rw [factors, if_neg hzero, if_neg hsmall]
      rw [hfactors] at htotal ⊢
      rw [if_neg fun h => hsmall (hdiv.mp h)]
      refine ⟨_, rfl, ?_⟩
      rw [wrap64_eq (by omega) (by omega)]
      omega

/-! ## The choice -/

theorem weighted_eq {draw : Nat} (hfits : FitsInt channels) (hne : channels ≠ [])
    (hdraw : draw < total (effectiveWeight channels) channels)
    (hchosen : pick (effectiveWeight channels) channels draw = some channel) : weighted draw channels = .ok channel := by
  obtain ⟨_, hsmoothing, htotal⟩ := smoothing_eq hfits hne
  have hroom : total (effectiveWeight channels) channels < 2 ^ 63 := hfits
  have hintn : intn (total (effectiveWeight channels) channels : Nat) draw = .ok (draw : Int) := by
    unfold intn
    rw [if_neg (by omega), Int.toNat_natCast, Nat.mod_eq_of_lt hdraw]
  simp only [weighted, hsmoothing, htotal, hintn]
  exact pickByWeight_eq (by omega) hroom (fun channel h => getWeight_eq hfits h) hchosen

theorem weighted_mod {draw : Nat} (hfits : FitsInt channels) (hne : channels ≠ []) :
    weighted draw channels = weighted (draw % total (effectiveWeight channels) channels) channels := by
  obtain ⟨_, hsmoothing, htotal⟩ := smoothing_eq hfits hne
  simp only [weighted, hsmoothing, htotal, intn, Int.toNat_natCast, Nat.mod_mod]

theorem total_pos (hne : channels ≠ []) : 0 < total (effectiveWeight channels) channels := by
  have hpos : 0 < channels.length := List.length_pos_of_ne_nil hne
  rw [total_effectiveWeight]
  unfold factors
  split
  · omega
  · split <;> omega

def level (channels : List Channel) (retry : Nat) : List Channel :=
  channels.filter fun channel => targetPriority (channels.map Channel.getPriority) retry = some channel.getPriority

theorem mem_sortedUniquePriorities {priorities : List Int} {v : Int} :
    v ∈ sortedUniquePriorities priorities ↔ v ∈ priorities := by
  simp [sortedUniquePriorities]

theorem targetPriority_mem (priorities : List Int) (retry : Nat) (hne : priorities ≠ []) :
    ∃ priority ∈ priorities, targetPriority priorities retry = some priority := by
  have hpos : 0 < (sortedUniquePriorities priorities).length := by
    obtain ⟨p, hp⟩ := List.exists_mem_of_ne_nil _ hne
    exact List.length_pos_of_mem (mem_sortedUniquePriorities.mpr hp)
  have hlt : (if (sortedUniquePriorities priorities).length ≤ retry then (sortedUniquePriorities priorities).length - 1
      else retry) < (sortedUniquePriorities priorities).length := by
    split <;> omega
  refine ⟨_, mem_sortedUniquePriorities.mp (List.getElem_mem hlt), ?_⟩
  simp only [targetPriority, List.getElem?_eq_getElem hlt]

theorem exists_level {α : Type*} (priorityOf : α → Int) (entries : List α) (retry : Nat) (hne : entries ≠ []) :
    ∃ priority, targetPriority (entries.map priorityOf) retry = some priority ∧
      (entries.filter fun entry => targetPriority (entries.map priorityOf) retry = some (priorityOf entry)) =
        entries.filter (fun entry => priorityOf entry = priority) ∧
      entries.filter (fun entry => priorityOf entry = priority) ≠ [] := by
  obtain ⟨priority, hmem, htarget⟩ := targetPriority_mem (entries.map priorityOf) retry (by simpa using hne)
  obtain ⟨chosen, hchosen, hpriority⟩ := List.mem_map.mp hmem
  refine ⟨priority, htarget, ?_, ?_⟩
  · rw [htarget]
    congr 1
    funext entry
    simp [eq_comm]
  · apply List.ne_nil_of_mem (a := chosen)
    exact List.mem_filter.mpr ⟨hchosen, by simpa using hpriority⟩

theorem chooseByPriority_eq (modelName group : String) (draw retry : Nat) (hne : channels ≠ []) :
    level channels retry ≠ [] ∧ chooseByPriority modelName group draw retry channels =
      match weighted draw (level channels retry) with
      | .ok channel => (some channel, none)
      | .error e => (none, some e) := by
  obtain ⟨_, htarget, hlevel, hsome⟩ := exists_level Channel.getPriority channels retry hne
  rw [level, hlevel]
  refine ⟨hsome, ?_⟩
  unfold chooseByPriority
  rw [htarget]
  dsimp only
  split
  · rename_i hnil
    exact absurd hnil hsome
  · rfl

def owner (channels : List Channel) (draw : Nat) : Option Channel :=
  pick (effectiveWeight channels) channels (draw % total (effectiveWeight channels) channels)

theorem owner_spec (draw : Nat) (hne : channels ≠ []) : ∃ channel ∈ channels, owner channels draw = some channel :=
  pick_isSome (Nat.mod_lt _ (total_pos hne))

theorem weighted_owner {draw : Nat} (hfits : FitsInt channels) (hne : channels ≠ [])
    (howner : owner channels draw = some channel) : weighted draw channels = .ok channel := by
  rw [weighted_mod hfits hne]
  exact weighted_eq hfits hne (Nat.mod_lt _ (total_pos hne)) howner

theorem level_singleton (channel : Channel) (retry : Nat) : level [channel] retry = [channel] := by
  obtain ⟨_, hmem, htarget⟩ := targetPriority_mem [channel.getPriority] retry (by simp)
  rw [List.mem_singleton.mp hmem] at htarget
  simp [level, htarget]

theorem answer_eq (cache : ChannelCache) (request : Request) (draw : Nat) (group : String) (retry : Nat)
    (hne : cache.candidates request group ≠ [])
    (hknown : ∀ id ∈ cache.candidates request group, (cache.channelsIDM id).isSome)
    (hfits : FitsInt (level (offered cache request group) retry)) : level (offered cache request group) retry ≠ [] ∧
      cache.getRandomSatisfiedChannel request draw group retry =
        (owner (level (offered cache request group) retry) draw, none) := by
  unfold offered at hfits ⊢
  unfold ChannelCache.getRandomSatisfiedChannel
  split
  · rename_i hnil
    exact absurd hnil hne
  · rename_i id hid
    rw [hid] at hknown hfits ⊢
    obtain ⟨channel, hchannel⟩ := Option.isSome_iff_exists.mp (hknown id List.mem_cons_self)
    have hlevel : level ([id].filterMap cache.channelsIDM) retry = [channel] := by
      simp [hchannel, level_singleton]
    obtain ⟨chosen, hmem, howner⟩ := owner_spec draw (List.cons_ne_nil channel [])
    rw [List.mem_singleton.mp hmem] at howner
    rw [hlevel, hchannel, howner]
    exact ⟨List.cons_ne_nil _ _, rfl⟩
  · have hfind : (cache.candidates request group).find? (fun id => (cache.channelsIDM id).isNone) = none := by
      rw [List.find?_eq_none]
      intro id hid
      simpa using Option.isSome_iff_ne_none.mp (hknown id hid)
    rw [hfind]
    have hoffered : (cache.candidates request group).filterMap cache.channelsIDM ≠ [] := by
      obtain ⟨id, hid⟩ := List.exists_mem_of_ne_nil _ hne
      obtain ⟨_, hchannel⟩ := Option.isSome_iff_exists.mp (hknown id hid)
      exact List.ne_nil_of_mem (List.mem_filterMap.mpr ⟨id, hid, hchannel⟩)
    obtain ⟨hlevel, hchoose⟩ := chooseByPriority_eq request.modelName group draw retry hoffered
    obtain ⟨_, -, howner⟩ := owner_spec draw hlevel
    refine ⟨hlevel, ?_⟩
    rw [hchoose, weighted_owner hfits hlevel howner, howner]

theorem filter_id (hnodup : (channels.map Channel.id).Nodup) (h : channel ∈ channels) :
    channels.filter (fun other => other.id = channel.id) = [channel] := by
  induction channels with
  | nil => cases h
  | cons first rest ih =>
    rw [List.map_cons, List.nodup_cons] at hnodup
    rcases List.mem_cons.mp h with rfl | h
    · have hrest : rest.filter (fun other => other.id = channel.id) = [] := by
        rw [List.filter_eq_nil_iff]
        intro other hother hid
        exact hnodup.1 (List.mem_map.mpr ⟨other, hother, by simpa using hid⟩)
      simp [hrest]
    · have hne : first.id ≠ channel.id := fun he => hnodup.1 (he ▸ List.mem_map_of_mem h)
      simpa [hne] using ih hnodup.2 h

def twoChannels (first second : Nat) : ChannelCache where
  group2model2channels := fun _ _ => [1, 2]
  channelsIDM := fun id =>
    if id = 1 then some { blankChannel 1 with status := .enabled, weight := some first }
    else if id = 2 then some { blankChannel 2 with status := .enabled, weight := some second }
    else none

def anyRequest : Request := ⟨"m", "m", []⟩

end NewApi.Channels.WeightedChoice
