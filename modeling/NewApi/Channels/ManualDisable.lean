import NewApi.Channels.Disabled
import NewApi.Channels.KeyDeletion

/-!
# A channel that an administrator has disabled

Only an administrator enables it again, unless an automatic disable has turned its status into auto-disabled first. A
status call loads the row under the polling lock and saves it later; the updates by tag take no lock.
-/

namespace NewApi.Channels

open Run Code.Channels

/-- The callers of `UpdateChannelStatus`. -/
inductive StatusCall where
  | admin (enable : Bool) (reason : String)
  | disableChannel (usingKey reason : String)
  | enableChannel (usingKey : String)
deriving DecidableEq

def StatusCall.usingKey : StatusCall → String
  | .admin _ _ => ""
  | .disableChannel usingKey _ | .enableChannel usingKey => usingKey

def StatusCall.status : StatusCall → ChannelStatus
  | .admin enable _ => if enable then .enabled else .manuallyDisabled
  | .disableChannel _ _ => .autoDisabled
  | .enableChannel _ => .enabled

def StatusCall.reason : StatusCall → String
  | .admin _ reason | .disableChannel _ reason => reason
  | .enableChannel _ => ""

def StatusCall.allowed (stored : ChannelStatus) : StatusCall → Bool
  | .enableChannel _ => stored = .autoDisabled
  | _ => true

structure Writer where
  call : StatusCall
  channel : Channel

/-- `disabled`: the keys disabled and not enabled since. `handed`: those that requests have got. -/
structure System where
  memoryCacheEnabled : Bool
  row : Channel
  cached : Option Channel
  copies : List Channel
  writer : Option Writer
  disabled : List String
  handed : List String

inductive WriterEvent where
  | load
  | reload
  | beginStatus (call : StatusCall) (now : Int)
  | endStatus
  | tag (enable : Bool)
  | nextKey (k : Nat) (draw : Nat)
  | manage (k : Nat) (now : Int) (action : KeyAction)
deriving DecidableEq

/-! ## Which keys a call is about -/

def StatusCall.remember (call : StatusCall) (disabled : List String) : List String :=
  match call with
  | .disableChannel usingKey _ => usingKey :: disabled
  | .enableChannel usingKey => disabled.filter (· ≠ usingKey)
  | .admin enable _ => if enable then disabled.filter (· ≠ "") else disabled

def keyAt (channel : Channel) (keyIndex : Option Int) : Option String :=
  keyIndex.bind fun keyIndex => channel.getKeys[keyIndex.toNat]?

def rememberAction (channel : Channel) (disabled : List String) : KeyAction → List String
  | .disableKey keyIndex => (keyAt channel keyIndex).toList ++ disabled
  | .enableKey keyIndex => disabled.filter fun key => keyAt channel keyIndex ≠ some key
  | .enableAllKeys => []
  | .disableAllKeys => channel.getKeys.take channel.channelInfo.multiKeySize ++ disabled
  | .deleteKey _ | .deleteDisabledKeys => disabled

/-! ## Steps -/

/-- After a status call's first part; `none` where the call ends there. -/
def System.callCache (s : System) (call : StatusCall) (now : Int) : Option (Option Channel) :=
  if s.memoryCacheEnabled then
    s.cached.bind fun channel =>
      (changeCachedStatus now channel call.usingKey call.status call.reason).map some
  else some s.cached

def System.beginStatus (s : System) (call : StatusCall) (now : Int) : System :=
  match s.callCache call now with
  | none => { s with disabled := call.remember s.disabled }
  | some cached =>
    match changeStatus now s.row call.usingKey call.status call.reason with
    | none => { s with cached, disabled := call.remember s.disabled }
    | some channel => { s with cached, writer := some ⟨call, channel⟩ }

/-- With the cache on only the cursor in memory changes. -/
def System.nextKey (s : System) (k : Nat) (copy : Channel) (draw : Nat) : System :=
  match getNextEnabledKey copy s.row.channelInfo.multiKeyPollingIndex draw with
  | .error _ => s
  | .ok answer =>
    match answer.saved with
    | none => { s with handed := answer.key :: s.handed }
    | some saved =>
      { s with
        handed := answer.key :: s.handed
        copies := s.copies.set k saved
        row := saveChannelInfo s.row saved }

def System.manage (s : System) (copy : Channel) (now : Int) (action : KeyAction) : System :=
  match manageMultiKeys now s.row copy action with
  | .error _ => s
  | .ok row => { s with row, disabled := rememberAction copy s.disabled action }

def writerStep (s : System) : WriterEvent → Option System
  | .load => some { s with copies := s.copies ++ [s.row] }
  | .reload =>
    if s.memoryCacheEnabled then some { s with cached := some (carryOver s.cached s.row) } else none
  | .beginStatus call now =>
    if s.writer.isNone ∧ call.allowed s.row.status = true then some (s.beginStatus call now) else none
  | .endStatus =>
    s.writer.map fun writer =>
      { s with
        row := saveStatusState s.row writer.channel
        writer := none
        disabled := writer.call.remember s.disabled }
  | .tag enable => some { s with row := { s.row with status := if enable then .enabled else .manuallyDisabled } }
  | .nextKey k draw =>
    if s.writer.isNone ∧ s.memoryCacheEnabled = false then s.copies[k]?.map fun copy => s.nextKey k copy draw else none
  | .manage k now action => if s.writer.isNone then s.copies[k]?.map fun copy => s.manage copy now action else none

inductive Effect (s : System) : WriterEvent → System → Prop where
  | load : Effect s .load { s with copies := s.copies ++ [s.row] }
  | reload (h : s.memoryCacheEnabled = true) : Effect s .reload { s with cached := some (carryOver s.cached s.row) }
  | beginStatus {call : StatusCall} {now : Int} (free : s.writer = none) (allowed : call.allowed s.row.status = true) :
      Effect s (.beginStatus call now) (s.beginStatus call now)
  | endStatus {writer : Writer} (h : s.writer = some writer) :
      Effect s .endStatus { s with
        row := saveStatusState s.row writer.channel, writer := none, disabled := writer.call.remember s.disabled }
  | tag {enable : Bool} : Effect s (.tag enable)
      { s with row := { s.row with status := if enable then .enabled else .manuallyDisabled } }
  | nextKey {k draw : Nat} {copy : Channel} (free : s.writer = none) (off : s.memoryCacheEnabled = false)
      (hcopy : s.copies[k]? = some copy) : Effect s (.nextKey k draw) (s.nextKey k copy draw)
  | manage {k : Nat} {now : Int} {action : KeyAction} {copy : Channel} (free : s.writer = none)
      (hcopy : s.copies[k]? = some copy) : Effect s (.manage k now action) (s.manage copy now action)

theorem effect_of_step {s t : System} {e : WriterEvent} (h : writerStep s e = some t) : Effect s e t := by
  cases e with
  | load => exact Option.some.inj h ▸ .load
  | reload =>
    simp only [writerStep, Option.ite_none_right_eq_some] at h
    exact Option.some.inj h.2 ▸ .reload h.1
  | beginStatus =>
    simp only [writerStep, Option.ite_none_right_eq_some] at h
    exact Option.some.inj h.2 ▸ .beginStatus (Option.isNone_iff_eq_none.mp h.1.1) h.1.2
  | endStatus =>
    obtain ⟨_, hwriter, rfl⟩ := Option.map_eq_some_iff.mp h
    exact .endStatus hwriter
  | tag => exact Option.some.inj h ▸ .tag
  | nextKey =>
    simp only [writerStep, Option.ite_none_right_eq_some] at h
    obtain ⟨copy, hcopy, rfl⟩ := Option.map_eq_some_iff.mp h.2
    exact .nextKey (Option.isNone_iff_eq_none.mp h.1.1) h.1.2 hcopy
  | manage =>
    simp only [writerStep, Option.ite_none_right_eq_some] at h
    obtain ⟨_, hcopy, rfl⟩ := Option.map_eq_some_iff.mp h.2
    exact .manage (Option.isNone_iff_eq_none.mp h.1) hcopy

theorem beginStatus_cases (s : System) (call : StatusCall) (now : Int) :
    s.callCache call now = none ∧ s.beginStatus call now = { s with disabled := call.remember s.disabled } ∨
    ∃ cached, s.callCache call now = some cached ∧
      (s.beginStatus call now = { s with cached, disabled := call.remember s.disabled } ∧
          changeStatus now s.row call.usingKey call.status call.reason = none ∨
        ∃ channel, changeStatus now s.row call.usingKey call.status call.reason = some channel ∧
          s.beginStatus call now = { s with cached, writer := some ⟨call, channel⟩ }) := by
  unfold System.beginStatus
  cases s.callCache call now with
  | none => exact .inl ⟨rfl, rfl⟩
  | some cached =>
    refine .inr ⟨cached, rfl, ?_⟩
    cases changeStatus now s.row call.usingKey call.status call.reason with
    | none => exact .inl ⟨rfl, rfl⟩
    | some channel => exact .inr ⟨channel, rfl, rfl⟩

/-! ## What a status call does to the status -/

variable {now : Int} {channel : Channel} {reason : String} {s : System}

theorem handler_keeps_disabled {usingKey : String} {status : ChannelStatus}
    (hstatus : status ≠ .enabled) (hchannel : channel.status ≠ .enabled) :
    (handlerMultiKeyUpdate now channel usingKey status reason).status ≠ .enabled := by
  simp only [handlerMultiKeyUpdate]
  split
  · exact hstatus
  split
  · split
    · exact hchannel
    · exact hstatus
  · split
    · simp [Channel.setStatusInfo]
    · simpa [hstatus] using hchannel

/-- There are keys, and the named one is unknown or another is enabled. -/
def LeavesStatus (channel : Channel) (usingKey : String) : Prop :=
  channel.channelInfo.isMultiKey = true ∧ channel.getKeys ≠ [] ∧
    match channel.getKeys.findIdx? (· = usingKey) with
    | none => usingKey ≠ ""
    | some i => ∃ j < channel.getKeys.length, j ≠ i ∧ getStatus channel.channelInfo.multiKeyStatusList j = .enabled

theorem setKeyStatus_other {status : ChannelStatus} {i j : Nat} {info : ChannelInfo}
    (h : j ≠ i) : (setKeyStatus now reason status i info).multiKeyStatusList j = info.multiKeyStatusList j := by
  unfold setKeyStatus
  split <;> simp [Function.update_of_ne h]

theorem handler_leaves_status {usingKey : String} (h : LeavesStatus channel usingKey) :
    (handlerMultiKeyUpdate now channel usingKey .autoDisabled reason).status = channel.status := by
  obtain ⟨-, hkeys, h⟩ := h
  simp only [handlerMultiKeyUpdate, hkeys, if_false]
  cases hfound : channel.getKeys.findIdx? (· = usingKey) with
  | none =>
    rw [hfound] at h
    simp [h]
  | some i =>
    rw [hfound] at h
    obtain ⟨j, hj, hji, henabled⟩ := h
    have hsome : hasEnabledMultiKey channel.getKeys
        (setKeyStatus now reason .autoDisabled i channel.channelInfo).multiKeyStatusList = true := by
      simp only [hasEnabledMultiKey, List.any_eq_true, List.mem_range]
      exact ⟨j, hj, by simpa [getStatus, setKeyStatus_other hji] using henabled⟩
    simp [hsome]

theorem handler_manual (h : "" ∉ channel.getKeys) :
    (handlerMultiKeyUpdate now channel "" .manuallyDisabled reason).status = .manuallyDisabled := by
  have hfound : channel.getKeys.findIdx? (· = "") = none := by
    simp only [List.findIdx?_eq_none_iff, decide_eq_false_iff_not]
    rintro _ hkey rfl
    exact h hkey
  simp only [handlerMultiKeyUpdate, hfound]
  split <;> rfl

theorem carryOver_status (old : Option Channel) (channel : Channel) :
    (carryOver old channel).status = channel.status := by
  unfold carryOver
  split
  · split
    · split <;> rfl
    · rfl
  · rfl

theorem callCache_disabled {call : StatusCall} {cached : Option Channel}
    (hstatus : call.status ≠ .enabled) (hcached : ∀ channel ∈ s.cached, channel.status ≠ .enabled)
    (h : s.callCache call now = some cached) : ∀ channel ∈ cached, channel.status ≠ .enabled := by
  unfold System.callCache at h
  split at h
  · obtain ⟨old, hold, h⟩ := Option.bind_eq_some_iff.mp h
    obtain ⟨_, hchanged, rfl⟩ := Option.map_eq_some_iff.mp h
    intro channel hchannel
    obtain rfl := Option.some.inj hchannel
    unfold changeCachedStatus at hchanged
    split at hchanged
    · obtain rfl := Option.some.inj hchanged
      exact handler_keeps_disabled hstatus (hcached old hold)
    split at hchanged
    · cases hchanged
    · obtain rfl := Option.some.inj hchanged
      exact hstatus
  · obtain rfl := Option.some.inj h
    exact hcached

/-! ## Conditions on the steps -/

def enablesKeys : KeyAction → Prop
  | .enableKey _ | .enableAllKeys => True
  | _ => False

/-- Nobody enables the channel or disables it automatically, and key operations are current. -/
def Undisturbed (s : System) : WriterEvent → Prop
  | .beginStatus (.admin enable _) _ =>
    enable = false ∧ (s.row.channelInfo.isMultiKey = true → "" ∉ s.row.getKeys)
  | .beginStatus (.disableChannel usingKey _) _ => s.row.status = .manuallyDisabled → LeavesStatus s.row usingKey
  | .tag enable => enable = false
  | .manage k _ action => ¬enablesKeys action ∧ ∀ copy ∈ s.copies[k]?, copy.status = s.row.status
  | _ => True

/-! ## The status through the steps -/

structure ManuallyDisabled (s : System) : Prop where
  row : s.row.status = .manuallyDisabled
  writer : ∀ writer ∈ s.writer, writer.channel.status = .manuallyDisabled

theorem changeStatus_manual {call : StatusCall}
    (hrow : s.row.status = .manuallyDisabled) (hallowed : call.allowed s.row.status = true)
    (ok : Undisturbed s (.beginStatus call now))
    (h : changeStatus now s.row call.usingKey call.status call.reason = some channel) :
    channel.status = .manuallyDisabled := by
  simp only [changeStatus] at h
  split at h
  · cases h
  cases call with
  | enableChannel => simp [StatusCall.allowed, hrow] at hallowed
  | disableChannel usingKey =>
    have leaves : LeavesStatus s.row usingKey := ok hrow
    rw [if_pos leaves.1] at h
    obtain rfl := Option.some.inj h
    exact (handler_leaves_status leaves).trans hrow
  | admin =>
    obtain ⟨rfl, hempty⟩ := ok
    split at h
    · obtain rfl := Option.some.inj h
      exact handler_manual (hempty ‹_›)
    · obtain rfl := Option.some.inj h
      rfl

theorem disable_status (h : channel.status = .manuallyDisabled) :
    (disableMultiKeyChannelIfUnavailable now channel).status = .manuallyDisabled := by
  unfold disableMultiKeyChannelIfUnavailable
  split
  · exact h
  · split
    · exact h
    · rfl

theorem apply_status {changed : Channel} {action : KeyAction} (hkeys : ¬enablesKeys action)
    (hstatus : channel.status = .manuallyDisabled) (h : action.apply now channel = .ok changed) :
    changed.status = .manuallyDisabled := by
  cases action with
  | enableKey | enableAllKeys => exact absurd trivial hkeys
  | disableKey =>
    obtain ⟨i, -, rfl⟩ := ok_of_map h
    exact disable_status hstatus
  | disableAllKeys =>
    simp only [KeyAction.apply, disableAllKeys] at h
    split at h
    · cases h
    · obtain rfl := Except.ok.inj h
      exact disable_status hstatus
  | deleteKey keyIndex =>
    obtain ⟨kept, rfl, -⟩ := deletion_kept (show IsDeletion (.deleteKey keyIndex) from trivial) h
    exact disable_status hstatus
  | deleteDisabledKeys =>
    obtain ⟨_, rfl, -⟩ := deletion_kept (show IsDeletion .deleteDisabledKeys from trivial) h
    exact disable_status hstatus

theorem step_manuallyDisabled {t : System} {e : WriterEvent} (ok : Undisturbed s e) (inv : ManuallyDisabled s)
    (h : writerStep s e = some t) : ManuallyDisabled t := by
  cases effect_of_step h with
  | load | reload => exact ⟨inv.row, inv.writer⟩
  | @beginStatus call now _ allowed =>
    obtain ⟨-, heq⟩ | ⟨_, -, ⟨heq, -⟩ | ⟨_, hchange, heq⟩⟩ := beginStatus_cases s call now
    · rw [heq]
      exact ⟨inv.row, inv.writer⟩
    · rw [heq]
      exact ⟨inv.row, inv.writer⟩
    rw [heq]
    refine ⟨inv.row, fun writer hwriter => ?_⟩
    obtain rfl := Option.some.inj hwriter
    exact changeStatus_manual inv.row allowed ok hchange
  | @endStatus writer hwriter => exact ⟨inv.writer writer hwriter, by simp⟩
  | @tag enable =>
    obtain rfl : enable = false := ok
    exact ⟨rfl, inv.writer⟩
  | nextKey =>
    unfold System.nextKey
    split
    · exact inv
    · split <;> exact ⟨inv.row, inv.writer⟩
  | @manage k now action copy _ hcopy =>
    unfold System.manage
    split
    · exact inv
    rename_i row hrow
    obtain ⟨-, _, hchanged, rfl⟩ := manage_ok hrow
    have hstatus := apply_status ok.1 ((ok.2 copy hcopy).trans inv.row) hchanged
    exact ⟨by simp [update, updates, hstatus], inv.writer⟩

structure OutOfUse (s : System) : Prop where
  manual : ManuallyDisabled s
  cached : ∀ channel ∈ s.cached, channel.status ≠ .enabled

theorem step_outOfUse {t : System} {e : WriterEvent} (ok : Undisturbed s e) (inv : OutOfUse s)
    (h : writerStep s e = some t) : OutOfUse t := by
  refine ⟨step_manuallyDisabled ok inv.manual h, ?_⟩
  cases effect_of_step h with
  | load => exact inv.cached
  | reload =>
    intro channel hchannel
    obtain rfl := Option.some.inj hchannel
    rw [carryOver_status, inv.manual.row]
    simp
  | @beginStatus call now _ allowed =>
    have hstatus : call.status ≠ .enabled := by
      cases call with
      | admin enable => simp [StatusCall.status, show enable = false from ok.1]
      | disableChannel => simp [StatusCall.status]
      | enableChannel => simp [StatusCall.allowed, inv.manual.row] at allowed
    obtain ⟨-, heq⟩ | ⟨_, hcall, ⟨heq, -⟩ | ⟨_, -, heq⟩⟩ := beginStatus_cases s call now
    · rw [heq]
      exact inv.cached
    · rw [heq]
      exact callCache_disabled hstatus inv.cached hcall
    · rw [heq]
      exact callCache_disabled hstatus inv.cached hcall
  | endStatus | tag => exact inv.cached
  | nextKey =>
    unfold System.nextKey
    split
    · exact inv.cached
    · split <;> exact inv.cached
  | manage =>
    unfold System.manage
    split <;> exact inv.cached

/-! ## Manual disable wins -/

theorem manual_disable_wins {s t : System} {es : List WriterEvent} (hrow : s.row.status = .manuallyDisabled)
    (hidle : s.writer = none) (run : Steps writerStep Undisturbed s es t) :
    t.row.status ≠ .enabled ∧
      ((∀ channel ∈ s.cached, channel.status ≠ .enabled) → ∀ channel ∈ t.cached, channel.status ≠ .enabled) := by
  have start : ManuallyDisabled s := ⟨hrow, by simp [hidle]⟩
  constructor
  · have last : ManuallyDisabled t := run.invariant (fun _ _ _ => step_manuallyDisabled) start
    rw [last.row]
    simp
  · intro hcached
    have last : OutOfUse t := run.invariant (fun _ _ _ => step_outOfUse) ⟨start, hcached⟩
    exact last.cached

def systemOf (row : Channel) : System := ⟨false, row, none, [], none, [], []⟩

def statusCall (call : StatusCall) : List WriterEvent := [.beginStatus call 0, .endStatus]

def disabledBy : StatusCall := .admin false "manual operation"

theorem manual_disable_wins_two_keys :
    let s := systemOf { channelWith "a\nb" 2 [] with status := .manuallyDisabled }
    ∃ t, writerStep s (.beginStatus (.disableChannel "a" "401") 0) = some t ∧ t.row.status ≠ .enabled := by
  intro s
  have hleaves : LeavesStatus s.row "a" := by
    refine ⟨rfl, by decide +kernel, ?_⟩
    rw [show s.row.getKeys.findIdx? (· = "a") = some 0 by decide +kernel]
    exact ⟨1, by decide +kernel, by decide +kernel, by decide +kernel⟩
  have hok : Undisturbed s (.beginStatus (.disableChannel "a" "401") 0) := fun _ => hleaves
  exact ⟨_, rfl, (manual_disable_wins (s := s) rfl rfl (.more hok rfl (.done _))).1⟩

/-- An automatic disable replaces the status, and then a test enables the channel. -/
theorem manual_disable_loses :
    (run writerStep free (systemOf (channelFor 1 "m")) (statusCall disabledBy ++
        statusCall (.disableChannel "sk" "401") ++ statusCall (.enableChannel "sk"))).map (·.row.status) =
      some .enabled ∧
    (run writerStep free (systemOf (channelWith "a" 1 [])) (statusCall disabledBy ++
        statusCall (.disableChannel "a" "401") ++ statusCall (.enableChannel "a"))).map (·.row.status) =
      some .enabled := by
  decide +kernel

end NewApi.Channels
