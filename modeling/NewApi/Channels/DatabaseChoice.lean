import NewApi.Channels.WeightedChoice

/-!
# The weighted choice from the database

The loop of `GetChannel` stops where the draw falls to zero, so the first ability owns one draw too many.
-/

namespace NewApi.Channels.DatabaseChoice

open GoTime Code.Channels Shares Channels.WeightedChoice

variable {abilities : List Ability} {store : AbilityStore} {request : Request} {group : String} {retry : Nat}

def share (ability : Ability) : Nat := ability.weight + 10

def abilityLevel (store : AbilityStore) (request : Request) (group : String) (retry : Nat) : List Ability :=
  (store.candidates request group).filter fun ability =>
    targetPriority ((store.candidates request group).map Ability.getPriority) retry = some ability.getPriority

def SharesFit (abilities : List Ability) : Prop := total share abilities < 2 ^ 63

theorem share_pos (ability : Ability) : 0 < share ability := by
  unfold share
  omega

theorem total_share_pos (hne : abilities ≠ []) : 0 < total share abilities := by
  obtain ⟨ability, hmem⟩ := List.exists_mem_of_ne_nil _ hne
  exact (share_pos ability).trans_le (share_le_total share hmem)

/-! ## The loops -/

theorem weightSum_from {sum : Nat} (hroom : sum + total share abilities < 2 ^ 64) :
    abilities.foldl (fun sum ability => (sum + (ability.weight + 10)) % 2 ^ 64) sum = sum + total share abilities := by
  induction abilities generalizing sum with
  | nil => rfl
  | cons ability abilities ih =>
    simp only [total, share] at hroom ih ⊢
    rw [List.foldl_cons, Nat.mod_eq_of_lt (by omega), ih (by omega)]
    omega

theorem abilityWeightSum_eq (hfits : SharesFit abilities) : abilityWeightSum abilities = total share abilities := by
  unfold SharesFit at hfits
  unfold abilityWeightSum
  rw [weightSum_from (by omega), Nat.zero_add]

/-- A draw goes to the owner of the draw before it; 0 stays with the first. -/
theorem pickAbility_eq {draw : Nat} (hdraw : draw < 2 ^ 63) (hfits : SharesFit abilities) :
    pickAbility draw abilities = pick share abilities (draw - 1) := by
  induction abilities generalizing draw with
  | nil => rfl
  | cons ability abilities ih =>
    have hrest : SharesFit abilities := lt_of_le_of_lt (Nat.le_add_left _ _) hfits
    simp only [SharesFit, total, share] at hfits
    have hweight : wrap64 (wrap64 (ability.weight : Int) + 10) = (share ability : Int) := by
      have hinner : wrap64 (ability.weight : Int) = ability.weight := wrap64_eq (by omega) (by omega)
      rw [hinner]
      exact wrap64_eq (by omega) (by omega)
    have hleft : wrap64 ((draw : Int) - (share ability : Int)) = (draw : Int) - (share ability : Int) := by
      apply wrap64_eq <;> simp only [share] <;> omega
    have hpos := share_pos ability
    simp only [pickAbility, pick, hweight, hleft]
    by_cases hfirst : draw - 1 < share ability
    · rw [if_pos (by omega), if_pos hfirst]
    · rw [if_neg (by omega), if_neg hfirst, ← Nat.cast_sub (by omega), ih (by omega) hrest, Nat.sub_right_comm]

/-! ## The answer -/

theorem mem_filterAbilitiesByConstraints {modelName : String} {filters : List ChannelFilter} {ability : Ability} :
    ability ∈ filterAbilitiesByConstraints store abilities modelName filters ↔
      ability ∈ abilities ∧ ∃ channel, store.channels ability.channelId = some channel ∧
        channelSatisfiesFilters channel modelName filters = true := by
  simp [filterAbilitiesByConstraints, Option.any_eq_true]

theorem candidates_known {ability : Ability} (h : ability ∈ store.candidates request group) :
    ∃ channel, store.channels ability.channelId = some channel := by
  unfold AbilityStore.candidates at h
  dsimp only at h
  split at h <;>
  · obtain ⟨-, channel, hchannel, -⟩ := mem_filterAbilitiesByConstraints.mp h
    exact ⟨channel, hchannel⟩

def chosen (abilities : List Ability) (draw : Nat) : Option Ability :=
  pick share abilities (draw % total share abilities - 1)

theorem chosen_mem (hne : abilities ≠ []) (draw : Nat) : ∃ ability ∈ abilities, chosen abilities draw = some ability := by
  apply pick_isSome
  have hlt := Nat.mod_lt draw (total_share_pos hne)
  omega

theorem intn_weightSum (hne : abilities ≠ []) (hfits : SharesFit abilities) (draw : Nat) :
    intn (wrap64 (abilityWeightSum abilities)) draw = .ok (draw % total share abilities : Nat) := by
  have hpos := total_share_pos hne
  have hroom : total share abilities < 2 ^ 63 := hfits
  rw [abilityWeightSum_eq hfits, wrap64_eq (by omega) (by omega), intn, if_neg (by omega), Int.toNat_natCast]

theorem pickAbility_mod (hne : abilities ≠ []) (hfits : SharesFit abilities) (draw : Nat) :
    pickAbility (draw % total share abilities : Nat) abilities = chosen abilities draw := by
  have hlt := Nat.mod_lt draw (total_share_pos hne)
  have hroom : total share abilities < 2 ^ 63 := hfits
  exact pickAbility_eq (by omega) hfits

theorem firstChannel_of_row {id : Int} {channel : Channel} (h : store.channels id = some channel) :
    store.firstChannel id = (some channel, none) := by
  simp only [AbilityStore.firstChannel, h]

theorem drawChannel_of_intn {weightSum weight : Int} {draw : Nat} (h : intn weightSum draw = .ok weight) :
    store.drawChannel weightSum draw abilities =
      store.firstChannel ((pickAbility weight abilities).elim 0 Ability.channelId) := by
  simp only [AbilityStore.drawChannel, h]

theorem drawChannel_eq {draw : Nat} {ability : Ability} {channel : Channel} (hne : abilities ≠ [])
    (hfits : SharesFit abilities) (hchosen : chosen abilities draw = some ability)
    (hchannel : store.channels ability.channelId = some channel) :
    store.drawChannel (wrap64 (abilityWeightSum abilities)) draw abilities = (some channel, none) := by
  rw [drawChannel_of_intn (intn_weightSum hne hfits draw), pickAbility_mod hne hfits, hchosen]
  exact firstChannel_of_row hchannel

theorem getChannel_chosen (hne : store.candidates request group ≠ [])
    (hfits : SharesFit (abilityLevel store request group retry)) (draw : Nat) :
    ∃ ability ∈ abilityLevel store request group retry,
      chosen (abilityLevel store request group retry) draw = some ability ∧
      ∃ channel, store.channels ability.channelId = some channel ∧
        store.getChannel request draw group retry = (some channel, none) := by
  obtain ⟨_, htarget, hlevel, hsome⟩ :=
    exists_level Ability.getPriority (store.candidates request group) retry hne
  rw [abilityLevel, hlevel] at hfits ⊢
  obtain ⟨ability, hmem, hchosen⟩ := chosen_mem hsome draw
  obtain ⟨channel, hchannel⟩ := candidates_known (List.mem_of_mem_filter hmem)
  refine ⟨ability, hmem, hchosen, channel, hchannel, ?_⟩
  unfold AbilityStore.getChannel
  rw [htarget]
  exact drawChannel_eq hsome hfits hchosen hchannel

/-! ## Shares -/

/-- The first of the level owns one draw more, and the last one less. -/
theorem countP_chosen (p : Ability → Bool) {first last : Ability} (hfirst : abilities.head? = some first)
    (hlast : abilities.getLast? = some last) :
    (List.range (total share abilities)).countP (fun draw => (chosen abilities draw).any p) + (p last).toNat =
      total share (abilities.filter p) + (p first).toNat := by
  obtain ⟨before, rfl⟩ := List.getLast?_eq_some_iff.mp hlast
  have hpos : 0 < total share (before ++ [last]) := total_share_pos (by simp)
  obtain ⟨n, hn⟩ : ∃ n, total share (before ++ [last]) = n + 1 := Nat.exists_eq_succ_of_ne_zero (by omega)
  have hend : pick share (before ++ [last]) (total share (before ++ [last]) - 1) = some last :=
    pick_last (share_pos last)
  have hstart : pick share (before ++ [last]) 0 = some first := by
    obtain ⟨_, hrest⟩ := List.head?_eq_some_iff.mp hfirst
    rw [hrest]
    exact pick_first (share_pos first)
  have hcount := countP_pred (fun draw => (pick share (before ++ [last]) draw).any p) n
  rw [← hn, countP_pick] at hcount
  rw [hn, Nat.add_sub_cancel] at hend
  simp only [hend, hstart, Option.any_some] at hcount
  rw [← hcount]
  congr 1
  apply List.countP_congr
  intro draw hdraw
  rw [chosen, Nat.mod_eq_of_lt (List.mem_range.mp hdraw)]

section Database

variable (hkeyed : ∀ id channel, store.channels id = some channel → channel.id = id)
  (hne : store.candidates request group ≠ []) (hfits : SharesFit (abilityLevel store request group retry))
include hkeyed hne hfits

theorem any_getChannel (p : Int → Bool) (draw : Nat) :
    (store.getChannel request draw group retry).1.any (fun channel => p channel.id) =
      (chosen (abilityLevel store request group retry) draw).any fun ability => p ability.channelId := by
  obtain ⟨_, -, hchosen, _, hchannel, hanswer⟩ := getChannel_chosen hne hfits draw
  rw [hanswer, hchosen]
  simp [hkeyed _ _ hchannel]

theorem countP_getChannel (p : Int → Bool) {first last : Ability}
    (hfirst : (abilityLevel store request group retry).head? = some first)
    (hlast : (abilityLevel store request group retry).getLast? = some last) :
    (List.range (total share (abilityLevel store request group retry))).countP (fun draw =>
        (store.getChannel request draw group retry).1.any fun channel => p channel.id) + (p last.channelId).toNat =
      total share ((abilityLevel store request group retry).filter fun ability => p ability.channelId) +
        (p first.channelId).toNat := by
  simp only [any_getChannel hkeyed hne hfits]
  exact countP_chosen (fun ability => p ability.channelId) hfirst hlast

/-- On a level of several channels the first one owns a draw too many. -/
theorem first_owns_one_more {first last : Ability} (hdistinct : first.channelId ≠ last.channelId)
    (hfirst : (abilityLevel store request group retry).head? = some first)
    (hlast : (abilityLevel store request group retry).getLast? = some last)
    (honce : (abilityLevel store request group retry).filter (fun ability => ability.channelId = first.channelId) =
      [first]) :
    (List.range (total share (abilityLevel store request group retry))).countP (fun draw =>
        (store.getChannel request draw group retry).1.any fun channel => channel.id = first.channelId) =
      share first + 1 := by
  have hcount := countP_getChannel hkeyed hne hfits (fun id => id = first.channelId) hfirst hlast
  rw [honce] at hcount
  simpa [total, hdistinct.symm] using hcount

end Database

theorem database_draws_match_weights (store : AbilityStore) (request : Request) (group : String) (retry : Nat)
    (hkeyed : ∀ id channel, store.channels id = some channel → channel.id = id)
    (hne : store.candidates request group ≠ [])
    (hone : (abilityLevel store request group retry).length = 1)
    (hfits : SharesFit (abilityLevel store request group retry)) :
    let abilities := abilityLevel store request group retry
    (∀ draw, ∃ ability ∈ abilities, ∃ channel, channel.id = ability.channelId ∧
      store.getChannel request draw group retry = (some channel, none)) ∧
    (∀ draw, store.getChannel request draw group retry =
      store.getChannel request (draw % total share abilities) group retry) ∧
    ∀ ability ∈ abilities, (List.range (total share abilities)).countP (fun draw =>
      (store.getChannel request draw group retry).1.any fun channel => channel.id = ability.channelId) =
        ability.weight + 10 := by
  intro abilities
  refine ⟨?_, ?_, ?_⟩
  · intro draw
    obtain ⟨ability, hmem, -, channel, hchannel, hanswer⟩ := getChannel_chosen hne hfits draw
    exact ⟨ability, hmem, channel, hkeyed _ _ hchannel, hanswer⟩
  · intro draw
    obtain ⟨ability, -, hchosen, _, hchannel, hanswer⟩ := getChannel_chosen hne hfits draw
    obtain ⟨other, -, hother, _, hrow, hmod⟩ := getChannel_chosen hne hfits (draw % total share abilities)
    have hsame : some other = some ability := by
      rw [← hother, ← hchosen]
      simp only [chosen, abilities, Nat.mod_mod]
    cases hsame
    rw [hanswer, hmod, ← hchannel, hrow]
  · obtain ⟨only, honly⟩ := List.length_eq_one_iff.mp hone
    intro ability hmem
    have hfirst : (abilityLevel store request group retry).head? = some only := by rw [honly]; rfl
    have hlast : (abilityLevel store request group retry).getLast? = some only := by rw [honly]; rfl
    have hcount := countP_getChannel hkeyed hne hfits (fun id => id = ability.channelId) hfirst hlast
    obtain rfl : ability = only := by simpa [abilities, honly] using hmem
    simp only [honly, total, share, List.filter_cons, List.filter_nil, decide_true, if_true] at hcount
    simp only [abilities, honly, total, share]
    omega

def twoAbilities (first second : Nat) : AbilityStore where
  abilities := fun _ _ => [⟨1, none, first⟩, ⟨2, some 0, second⟩]
  channels := fun id => if id = 1 ∨ id = 2 then some { blankChannel id with status := .enabled } else none

def oneAbility (weight : Nat) : AbilityStore where
  abilities := fun _ _ => [⟨1, some 5, weight⟩]
  channels := fun id => if id = 1 then some { blankChannel id with status := .enabled } else none

theorem database_draws_match_weights_one :
    (List.range 17).countP (fun draw =>
      ((oneAbility 7).getChannel anyRequest draw "default" 0).1.any fun channel => channel.id = 1) = 17 := by
  have hkeyed : ∀ id channel, (oneAbility 7).channels id = some channel → channel.id = id := by
    intro id channel h
    simp only [oneAbility, Option.ite_none_right_eq_some, Option.some.injEq] at h
    rw [← h.2]
    rfl
  have hlevel : abilityLevel (oneAbility 7) anyRequest "default" 0 = [⟨1, some 5, 7⟩] := by decide +kernel
  have hdraws := (database_draws_match_weights (oneAbility 7) anyRequest "default" 0 hkeyed (by decide +kernel)
    (by rw [hlevel]; rfl) (by rw [hlevel]; unfold SharesFit; decide)).2.2 ⟨1, some 5, 7⟩ (by rw [hlevel]; simp)
  rw [hlevel] at hdraws
  exact hdraws

theorem first_owns_one_more_of_two : (List.range 20).countP (fun draw =>
    ((twoAbilities 0 0).getChannel anyRequest draw "default" 0).1.any fun channel => channel.id = 1) = 11 := by
  have hlevel : abilityLevel (twoAbilities 0 0) anyRequest "default" 0 = [⟨1, none, 0⟩, ⟨2, some 0, 0⟩] := by decide +kernel
  have hdraws := first_owns_one_more (fun _ _ h => by cases (Option.ite_none_right_eq_some.mp h).2; rfl)
    (show _ ≠ _ by decide +kernel) (by rw [hlevel]; unfold SharesFit; decide) (show (1 : Int) ≠ 2 by decide)
    (congrArg List.head? hlevel) (congrArg List.getLast? hlevel) (by rw [hlevel]; decide)
  rwa [hlevel] at hdraws

/-- Of 20 draws 11 go to the first. -/
theorem first_of_two_owns_more :
    ∃ (store : AbilityStore) (request : Request) (group : String) (retry : Nat),
      (∀ id channel, store.channels id = some channel → channel.id = id) ∧
      abilityLevel store request group retry = [⟨1, none, 0⟩, ⟨2, some 0, 0⟩] ∧
      (List.range 20).countP (fun draw =>
        (store.getChannel request draw group retry).1.any fun channel => channel.id = 1) = 11 ∧
      (List.range 20).countP (fun draw =>
        (store.getChannel request draw group retry).1.any fun channel => channel.id = 2) = 9 := by
  refine ⟨twoAbilities 0 0, anyRequest, "default", 0, ?_, by decide +kernel, by decide +kernel, by decide +kernel⟩
  intro id channel h
  simp only [twoAbilities, Option.ite_none_right_eq_some, Option.some.injEq] at h
  rw [← h.2]
  rfl

end NewApi.Channels.DatabaseChoice
