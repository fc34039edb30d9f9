import NewApi.Code.Channel
import NewApi.Lib.Run

/-!
# Deleting keys

A deletion writes the keys that are left one per line, and takes away nothing else as long as the lines are read back
as they were written.
-/

namespace NewApi.Channels

open Run Code.Channels

/-! ## Keys with their statuses -/

def marked (keys : List String) (statusList : Nat → Option ChannelStatus) : List (String × ChannelStatus) :=
  keys.zipIdx.map fun entry => (entry.1, getStatus statusList entry.2)

def keyStatuses (channel : Channel) : List (String × ChannelStatus) :=
  marked channel.getKeys channel.channelInfo.multiKeyStatusList

theorem marked_fst (keys : List String) (statusList : Nat → Option ChannelStatus) :
    (marked keys statusList).map Prod.fst = keys := by
  unfold marked
  rw [List.map_map]
  exact List.zipIdx_map_fst 0 keys

variable {keys : List String} {i : Nat} {info : ChannelInfo} {kept : Kept} {channel row : Channel} {now : Int}
  {action : KeyAction}

theorem marked_congr {statusList statusList' : Nat → Option ChannelStatus}
    (h : ∀ i < keys.length, statusList i = statusList' i) : marked keys statusList = marked keys statusList' := by
  apply List.map_congr_left
  rintro ⟨_, i⟩ hmem
  have hi : i < keys.length := by simpa using List.snd_lt_of_mem_zipIdx hmem
  simp [getStatus, h i hi]

theorem marked_append (keys : List String) (key : String) (statusList : Nat → Option ChannelStatus) :
    marked (keys ++ [key]) statusList = marked keys statusList ++ [(key, getStatus statusList keys.length)] := by
  simp [marked, List.zipIdx_append]

/-! ## The loop of a deletion -/

def Fresh (kept : Kept) : Prop := ∀ n, kept.remainingKeys.length ≤ n → kept.newStatusList n = none

theorem put_other {α : Type} {m : Nat → Option α} {n : Nat} {entry : Option α} (h : n ≠ i) : put m i entry n = m n := by
  cases entry with
  | none => rfl
  | some => exact Function.update_of_ne h _ _

theorem put_self {α : Type} {m : Nat → Option α} {entry : Option α} (h : m i = none) : put m i entry i = entry := by
  cases entry with
  | none => exact h
  | some => exact Function.update_self _ _ _

theorem push_fresh {details : Bool} {key : String} (h : Fresh kept) : Fresh (kept.push info details i key) := by
  intro n hn
  simp only [Kept.push, List.length_append, List.length_singleton] at hn
  simp only [Kept.push, put_other (show n ≠ kept.remainingKeys.length by omega)]
  exact h n (by omega)

theorem push_marked {details : Bool} {key : String} (h : Fresh kept) :
    marked (kept.push info details i key).remainingKeys (kept.push info details i key).newStatusList =
      marked kept.remainingKeys kept.newStatusList ++ [(key, getStatus info.multiKeyStatusList i)] := by
  simp only [Kept.push, marked_append]
  congr 1
  · exact marked_congr fun n hn => put_other (by omega)
  -- an enabled key has no entry, and none stands at the new index yet
  simp only [getStatus, put_self (h _ (le_refl _))]
  cases hstatus : info.multiKeyStatusList i with
  | none => rfl
  | some status => by_cases henabled : status = .enabled <;> simp [Option.filter_some, henabled]

theorem keepKeys_marked {deleted details : Nat → Bool} (h : Fresh kept) :
    marked (keepKeys info deleted details i keys kept).remainingKeys
        (keepKeys info deleted details i keys kept).newStatusList =
      marked kept.remainingKeys kept.newStatusList ++
        ((keys.zipIdx i).filter fun entry => !deleted entry.2).map fun entry =>
          (entry.1, getStatus info.multiKeyStatusList entry.2) := by
  induction keys generalizing i kept with
  | nil => simp [keepKeys]
  | cons key keys ih =>
    rw [keepKeys, List.zipIdx_cons]
    cases hdeleted : deleted i with
    | true => simp [ih h, hdeleted]
    | false => simp [ih (push_fresh h), push_marked h, hdeleted]

theorem filter_zipIdx_eraseIdx (keys : List String) (n k : Nat) :
    ((keys.zipIdx n).filter fun entry => !decide (entry.2 = n + k)) = (keys.zipIdx n).eraseIdx k := by
  induction keys generalizing n k with
  | nil => simp
  | cons key keys ih =>
    cases k with
    | zero =>
      have : ∀ entry ∈ keys.zipIdx (n + 1), entry.2 ≠ n := by
        rintro ⟨_, i⟩ hmem
        have := List.le_snd_of_mem_zipIdx hmem
        omega
      simpa [List.zipIdx_cons, List.filter_eq_self] using this
    | succ k =>
      have hk : n + (k + 1) = (n + 1) + k := by omega
      rw [List.zipIdx_cons, List.eraseIdx_cons_succ, ← ih, hk, List.filter_cons_of_pos]
      simp
      omega

/-! ## Keys that are read back -/

/-- Keys that come back as they are when they are written one per line. -/
structure Separable (keys : List String) : Prop where
  nonempty : keys ≠ []
  line : ∀ key ∈ keys, '\n' ∉ key.toList
  first : ∀ key ∈ keys.head?, key ≠ ""
  last : ∀ key ∈ keys.getLast?, key ≠ ""
  notArray : arrayKeys (GoText.join '\n' keys) = none

section

variable (h : Separable keys)
include h

theorem Separable.lineKeys : lineKeys (GoText.join '\n' keys) = keys := by
  unfold Code.Channels.lineKeys
  rw [GoText.trim_join h.line h.first h.last, GoText.split_join h.nonempty h.line]

theorem Separable.ne_empty : GoText.join '\n' keys ≠ "" := by
  intro hempty
  have hkeys := GoText.split_join h.nonempty h.line
  rw [hempty] at hkeys
  exact h.first "" (by rw [← hkeys]; rfl) rfl

theorem Separable.getKeys (hkey : channel.key = GoText.join '\n' keys) (hloaded : channel.keys = [])
    : channel.getKeys = keys := by
  simp [Channel.getKeys, hkey, h.ne_empty, hloaded, h.notArray, h.lineKeys]

theorem Separable.countedKeys : countedKeys (GoText.join '\n' keys) = keys := by
  simp [Code.Channels.countedKeys, h.ne_empty, h.notArray, h.lineKeys]

theorem update_keyStatuses (hkey : channel.key = GoText.join '\n' keys) (hmulti : channel.channelInfo.isMultiKey = true)
    (hloaded : row.keys = []) :
    keyStatuses (update row channel) = marked keys channel.channelInfo.multiKeyStatusList := by
  have hread : (update row channel).getKeys = keys :=
    h.getKeys (by simp [update, updates, hkey, h.ne_empty]) hloaded
  unfold keyStatuses
  rw [hread]
  apply marked_congr
  intro i hi
  simp [update, updates, recount, hmulti, hkey, h.ne_empty, h.countedKeys, hi]

end

@[simp]
theorem disable_key (now : Int) (channel : Channel) :
    (disableMultiKeyChannelIfUnavailable now channel).key = channel.key := by
  unfold disableMultiKeyChannelIfUnavailable
  split
  · rfl
  · split <;> rfl

@[simp]
theorem disable_info (now : Int) (channel : Channel) :
    (disableMultiKeyChannelIfUnavailable now channel).channelInfo = channel.channelInfo := by
  unfold disableMultiKeyChannelIfUnavailable
  split
  · rfl
  · split <;> rfl

/-! ## Deletions -/

def IsDeletion : KeyAction → Prop
  | .deleteKey _ | .deleteDisabledKeys => True
  | _ => False

def without (keys : List (String × ChannelStatus)) : KeyAction → List (String × ChannelStatus)
  | .deleteKey (some keyIndex) => keys.eraseIdx keyIndex.toNat
  | .deleteDisabledKeys => keys.filter fun key => key.2 ≠ .autoDisabled
  | _ => keys

theorem checkKeyIndex_ok {keyIndex : Option Int} {missing : String}
    (h : checkKeyIndex channel keyIndex missing = .ok i) : ∃ k, keyIndex = some k ∧ i = k.toNat := by
  unfold checkKeyIndex at h
  split at h
  · cases h
  · split at h
    · cases h
    · exact ⟨_, rfl, (Except.ok.inj h).symm⟩

theorem deletion_kept {changed : Channel} (hdeletion : IsDeletion action) (h : action.apply now channel = .ok changed) :
    ∃ kept : Kept, changed = disableMultiKeyChannelIfUnavailable now (channel.keeping kept) ∧
      marked kept.remainingKeys kept.newStatusList = without (keyStatuses channel) action := by
  have fresh : Fresh noneKept := fun _ _ => rfl
  cases action with
  | deleteKey =>
    obtain ⟨i, hi, h⟩ := ok_of_bind h
    obtain ⟨k, rfl, rfl⟩ := checkKeyIndex_ok hi
    dsimp only at h
    split at h
    · cases h
    refine ⟨_, (Except.ok.inj h).symm, ?_⟩
    rw [keepKeys_marked fresh]
    have := filter_zipIdx_eraseIdx channel.getKeys 0 k.toNat
    rw [Nat.zero_add] at this
    rw [this, ← List.eraseIdx_map]
    rfl
  | deleteDisabledKeys =>
    simp only [KeyAction.apply, deleteDisabledKeys] at h
    split at h
    · cases h
    refine ⟨_, (Except.ok.inj h).symm, ?_⟩
    rw [keepKeys_marked fresh]
    simp only [without, keyStatuses, marked, List.filter_map]
    simp [noneKept, Function.comp_def]
  | _ => exact hdeletion.elim

theorem manage_ok {copy row' : Channel} (h : manageMultiKeys now row copy action = .ok row') :
    copy.channelInfo.isMultiKey = true ∧ ∃ changed, action.apply now copy = .ok changed ∧ row' = update row changed := by
  unfold manageMultiKeys at h
  split at h
  · cases h
  · rename_i hmulti
    obtain ⟨changed, hchanged, rfl⟩ := ok_of_map h
    exact ⟨by simpa using hmulti, changed, hchanged, rfl⟩

theorem deletion_keyStatuses {copy row' : Channel} (hdeletion : IsDeletion action) (hloaded : row.keys = [])
    (hkeys : Separable ((without (keyStatuses copy) action).map Prod.fst))
    (h : manageMultiKeys now row copy action = .ok row') : keyStatuses row' = without (keyStatuses copy) action := by
  obtain ⟨hmulti, _, hchanged, rfl⟩ := manage_ok h
  obtain ⟨kept, rfl, hkept⟩ := deletion_kept hdeletion hchanged
  have hremaining : kept.remainingKeys = (without (keyStatuses copy) action).map Prod.fst := by
    rw [← hkept, marked_fst]
  rw [← hremaining] at hkeys
  rw [update_keyStatuses hkeys (by simp [Channel.keeping]) (by simpa [Channel.keeping] using hmulti) hloaded]
  simpa [Channel.keeping] using hkept

def channelWith (key : String) (size : Nat) (statuses : List (Nat × ChannelStatus)) : Channel :=
  ⟨1, key, .enabled, none, "m", "default", none, none, none,
    ⟨true, size, fun i => statuses.lookup i, fun _ => none, fun _ => none, 0, .polling⟩, []⟩

end NewApi.Channels

