import NewApi.Lib.GoText
import NewApi.Lib.GoTime
import NewApi.Lib.Json

/-!
# Channels and their keys

The row, the status flow and the polling of `model/channel.go`, and the key operations of `controller/channel.go`. The maps of
a channel's info are functions from the index of a key. What is called on a loaded channel takes that copy.
-/

namespace NewApi.Code.Channels

inductive ChannelStatus where
  | unknown | enabled | manuallyDisabled | autoDisabled
deriving DecidableEq

inductive MultiKeyMode where
  | random | polling
  | other (text : String)
deriving DecidableEq

structure ChannelInfo where
  isMultiKey : Bool
  multiKeySize : Nat
  multiKeyStatusList : Nat → Option ChannelStatus
  multiKeyDisabledReason : Nat → Option String
  multiKeyDisabledTime : Nat → Option Int
  multiKeyPollingIndex : Int
  multiKeyMode : MultiKeyMode

structure OtherInfo where
  statusReason : Option String
  statusTime : Option Int
deriving DecidableEq

/-- `keys` is in memory only, and `otherInfo` is `none` for an empty text. -/
structure Channel where
  id : Int
  key : String
  status : ChannelStatus
  weight : Option Nat
  models : String
  group : String
  priority : Option Int
  tag : Option String
  otherInfo : Option OtherInfo
  channelInfo : ChannelInfo
  keys : List String

variable (channel : Channel)

def Channel.getOtherInfo : OtherInfo := channel.otherInfo.getD ⟨none, none⟩

/-- The two entries, written together as every caller does. -/
def Channel.setStatusInfo (reason : String) (now : Int) : Channel :=
  { channel with otherInfo := some ⟨some reason, some now⟩ }

def Channel.getPriority : Int := channel.priority.getD 0

/-- Go's `int` of the `uint`. -/
def Channel.getWeight : Int := GoTime.wrap64 (channel.weight.getD 0)

def splitNames (text : String) : List String := GoText.split ',' text

def Channel.getModels : List String :=
  if channel.models = "" then [] else splitNames (GoText.trim ',' channel.models)

def Channel.groupNames : List String := splitNames channel.group

/-! ## The keys of a channel -/

/-- The elements of the array, where the text begins with `[` and is one. -/
def arrayKeys (key : String) : Option (List String) :=
  let trimmed := (GoText.trimSpace key).toList
  if trimmed.head? = some '[' then (JsonText.rawArray trimmed).map (·.map String.ofList) else none

def lineKeys (key : String) : List String := GoText.split '\n' (GoText.trim '\n' key)

def Channel.getKeys : List String :=
  if channel.key = "" then []
  else if channel.keys ≠ [] then channel.keys
  else (arrayKeys channel.key).getD (lineKeys channel.key)

def getStatus (statusList : Nat → Option ChannelStatus) (idx : Nat) : ChannelStatus := (statusList idx).getD .enabled

def hasEnabledMultiKey (keys : List String) (statusList : Nat → Option ChannelStatus) : Bool :=
  (List.range keys.length).any fun i => getStatus statusList i = .enabled

def channelStatusReasonAllKeysDisabled : String := "All keys are disabled"

/-! ## Writes -/

/-- A map after an entry was copied to `i`. -/
def put {α : Type} (m : Nat → Option α) (i : Nat) (entry : Option α) : Nat → Option α :=
  match entry with
  | some value => Function.update m i (some value)
  | none => m

variable (row channel : Channel)

/-- GORM's `Updates` with a struct leaves out zero values. -/
def updates : Channel :=
  { row with
    key := if channel.key = "" then row.key else channel.key
    status := if channel.status = .unknown then row.status else channel.status
    weight := channel.weight <|> row.weight
    models := if channel.models = "" then row.models else channel.models
    group := if channel.group = "" then row.group else channel.group
    priority := channel.priority <|> row.priority
    tag := channel.tag <|> row.tag
    otherInfo := channel.otherInfo <|> row.otherInfo
    channelInfo := channel.channelInfo }

/-- The keys as `Update` counts them: an empty array is read as a line. -/
def countedKeys (keyStr : String) : List String :=
  if keyStr = "" then []
  else
    match arrayKeys keyStr with
    | some (key :: keys) => key :: keys
    | _ => lineKeys keyStr

def recount (keyStr : String) (info : ChannelInfo) : ChannelInfo :=
  if info.isMultiKey then
    let size := (countedKeys keyStr).length
    { info with
      multiKeySize := size
      multiKeyStatusList := fun idx => if size ≤ idx then none else info.multiKeyStatusList idx }
  else info

def update : Channel :=
  let keyStr := if channel.key ≠ "" then channel.key else row.key
  updates row { channel with channelInfo := recount keyStr channel.channelInfo }

def saveStatusState : Channel :=
  { row with
    status := channel.status
    otherInfo := channel.otherInfo
    channelInfo := if channel.channelInfo.isMultiKey then channel.channelInfo else row.channelInfo }

def saveChannelInfo : Channel := { row with channelInfo := channel.channelInfo }

/-! ## The status flow -/

def setKeyStatus (now : Int) (reason : String) (status : ChannelStatus) (keyIndex : Nat) (info : ChannelInfo) :
    ChannelInfo :=
  if status = .enabled then
    { info with multiKeyStatusList := Function.update info.multiKeyStatusList keyIndex none }
  else
    { info with
      multiKeyStatusList := Function.update info.multiKeyStatusList keyIndex (some status)
      multiKeyDisabledReason := Function.update info.multiKeyDisabledReason keyIndex (some reason)
      multiKeyDisabledTime := Function.update info.multiKeyDisabledTime keyIndex (some now) }

def handlerMultiKeyUpdate (now : Int) (channel : Channel) (usingKey : String) (status : ChannelStatus)
    (reason : String) : Channel :=
  let keys := channel.getKeys
  if keys = [] then { channel with status }
  else
    match keys.findIdx? (· = usingKey) with
    | none =>
      if usingKey ≠ "" then channel
      else { channel with status }.setStatusInfo reason now
    | some keyIndex =>
      let channel := { channel with channelInfo := setKeyStatus now reason status keyIndex channel.channelInfo }
      if hasEnabledMultiKey keys channel.channelInfo.multiKeyStatusList = false then
        { channel with status := .autoDisabled }.setStatusInfo channelStatusReasonAllKeysDisabled now
      else if status = .enabled then { channel with status := .enabled }
      else channel

/-- `UpdateChannelStatus`: the row, or `none` where it is left alone. -/
def changeStatus (now : Int) (channel : Channel) (usingKey : String) (status : ChannelStatus) (reason : String) :
    Option Channel :=
  -- a manual operation replaces the reason of exhausted keys even where the status is the same
  let overridesKeyExhaustion := channel.channelInfo.isMultiKey = true ∧ usingKey = "" ∧ status = .manuallyDisabled ∧
    reason ≠ channelStatusReasonAllKeysDisabled ∧
    channel.getOtherInfo.statusReason = some channelStatusReasonAllKeysDisabled
  if channel.status = status ∧ ¬overridesKeyExhaustion then none
  else if channel.channelInfo.isMultiKey then some (handlerMultiKeyUpdate now channel usingKey status reason)
  else some ({ channel with status }.setStatusInfo reason now)

/-- The cached channel after it, or `none` where the call ends there. -/
def changeCachedStatus (now : Int) (channel : Channel) (usingKey : String) (status : ChannelStatus)
    (reason : String) : Option Channel :=
  if channel.channelInfo.isMultiKey then some (handlerMultiKeyUpdate now channel usingKey status reason)
  else if channel.status = status then none
  else some { channel with status }

/-! ## The next key -/

def nextFrom (keys : List String) (statusList : Nat → Option ChannelStatus) (start : Nat) : Option Nat :=
  ((List.range keys.length).map fun i => (start + i) % keys.length).find? fun idx =>
    getStatus statusList idx = .enabled

structure NextKey where
  key : String
  index : Nat
  /-- The copy saved afterwards, in polling mode without the cache. -/
  saved : Option Channel

/-- `pollingIndex` is the stored cursor, `draw` the random number. -/
def getNextEnabledKey (channel : Channel) (pollingIndex : Int) (draw : Nat) : Except String NextKey :=
  if channel.channelInfo.isMultiKey = false then .ok ⟨channel.key, 0, none⟩
  else
    let keys := channel.getKeys
    let statusList := channel.channelInfo.multiKeyStatusList
    let enabledIdx := (List.range keys.length).filter fun i => getStatus statusList i = .enabled
    let answer := fun (idx : Nat) (saved : Option Channel) => NextKey.mk (keys[idx]?.getD "") idx saved
    if keys = [] then .error "no keys available"
    else if enabledIdx = [] then .error "no enabled keys"
    else
      match channel.channelInfo.multiKeyMode with
      | .random => .ok (answer (enabledIdx[draw % enabledIdx.length]?.getD 0) none)
      | .polling =>
        let start := if pollingIndex < 0 ∨ (keys.length : Int) ≤ pollingIndex then 0 else pollingIndex.toNat
        match nextFrom keys statusList start with
        | some idx =>
          let next := ((idx + 1) % keys.length : Nat)
          .ok (answer idx (some { channel with channelInfo :=
            { channel.channelInfo with multiKeyPollingIndex := next } }))
        | none => .ok (answer (enabledIdx.headD 0) (some channel))
      | .other _ => .ok (answer (enabledIdx.headD 0) none)

/-! ## Where the cursor lives -/

structure ChannelState where
  memoryCacheEnabled : Bool
  row : Channel
  cached : Option Channel

def ChannelState.pollingIndex (s : ChannelState) : Except String Int :=
  if s.memoryCacheEnabled then
    match s.cached with
    | some channel => .ok channel.channelInfo.multiKeyPollingIndex
    | none => .error ("channel #" ++ toString s.row.id ++ " no longer exists")
  else .ok s.row.channelInfo.multiKeyPollingIndex

inductive Receiver where
  | cached
  | loaded (copy : Channel)

def ChannelState.object (s : ChannelState) : Receiver → Option Channel
  | .cached => s.cached
  | .loaded copy => some copy

/-- With the cache off the info is saved, and an error of that is dropped. -/
def ChannelState.leave (s : ChannelState) (receiver : Receiver) (saveFails : Bool) (saved : Option Channel) :
    ChannelState :=
  match saved with
  | none => s
  | some saved =>
    let s := match receiver with
      | .cached => { s with cached := some saved }
      | .loaded _ => s
    if s.memoryCacheEnabled = false ∧ saveFails = false then { s with row := saveChannelInfo s.row saved } else s

/-- It is `none` where there is no object to call it on. -/
def ChannelState.getNextEnabledKey (s : ChannelState) (receiver : Receiver) (draw : Nat) (saveFails : Bool) :
    Option (Except String NextKey × ChannelState) :=
  (s.object receiver).map fun channel =>
    match Channels.getNextEnabledKey channel (s.pollingIndex.toOption.getD 0) draw, s.pollingIndex with
    | .error e, _ => (.error e, s)
    | .ok answer, .error e => if answer.saved.isSome then (.error e, s) else (.ok answer, s)
    | .ok answer, .ok _ => (.ok answer, s.leave receiver saveFails answer.saved)

/-! ## Key operations of an administrator -/

def Channel.hasEnabledKey (channel : Channel) : Bool :=
  channel.channelInfo.isMultiKey = false || hasEnabledMultiKey channel.getKeys channel.channelInfo.multiKeyStatusList

def disableMultiKeyChannelIfUnavailable (now : Int) (channel : Channel) : Channel :=
  if channel.channelInfo.isMultiKey = false ∨ channel.hasEnabledKey = true then channel
  else if channel.status ≠ .enabled then channel
  else { channel with status := .manuallyDisabled }.setStatusInfo channelStatusReasonAllKeysDisabled now

def restoreMultiKeyChannelIfAvailable (now : Int) (channel : Channel) : Channel :=
  if channel.status ≠ .manuallyDisabled ∨ channel.hasEnabledKey = false then channel
  else if channel.getOtherInfo.statusReason ≠ some channelStatusReasonAllKeysDisabled then channel
  else { channel with status := .enabled }.setStatusInfo "" now

/-- The keys that a deletion keeps, and their entries under the new indices. -/
structure Kept where
  remainingKeys : List String
  newStatusList : Nat → Option ChannelStatus
  newDisabledTime : Nat → Option Int
  newDisabledReason : Nat → Option String

/-- `details`: the time and the reason are kept. -/
def Kept.push (info : ChannelInfo) (details : Bool) (i : Nat) (key : String) (kept : Kept) : Kept :=
  let newIndex := kept.remainingKeys.length
  { remainingKeys := kept.remainingKeys ++ [key]
    newStatusList := put kept.newStatusList newIndex ((info.multiKeyStatusList i).filter (· ≠ .enabled))
    newDisabledTime := if details then put kept.newDisabledTime newIndex (info.multiKeyDisabledTime i)
      else kept.newDisabledTime
    newDisabledReason := if details then put kept.newDisabledReason newIndex (info.multiKeyDisabledReason i)
      else kept.newDisabledReason }

def keepKeys (info : ChannelInfo) (deleted details : Nat → Bool) : Nat → List String → Kept → Kept
  | _, [], kept => kept
  | i, key :: keys, kept =>
    keepKeys info deleted details (i + 1) keys (if deleted i then kept else kept.push info (details i) i key)

def Channel.keeping (channel : Channel) (kept : Kept) : Channel :=
  { channel with
    key := GoText.join '\n' kept.remainingKeys
    channelInfo :=
      { channel.channelInfo with
        multiKeySize := kept.remainingKeys.length
        multiKeyStatusList := kept.newStatusList
        multiKeyDisabledTime := kept.newDisabledTime
        multiKeyDisabledReason := kept.newDisabledReason } }

def noneKept : Kept := ⟨[], fun _ => none, fun _ => none, fun _ => none⟩

def checkKeyIndex (channel : Channel) (keyIndex : Option Int) (missing : String) : Except String Nat :=
  match keyIndex with
  | none => .error missing
  | some keyIndex =>
    if keyIndex < 0 ∨ (channel.channelInfo.multiKeySize : Int) ≤ keyIndex then .error "Key index out of range"
    else .ok keyIndex.toNat

def disableKey (now : Int) (channel : Channel) (keyIndex : Option Int) : Except String Channel :=
  (checkKeyIndex channel keyIndex "No key index specified to disable").map fun keyIndex =>
    disableMultiKeyChannelIfUnavailable now { channel with channelInfo :=
      { channel.channelInfo with
        multiKeyStatusList :=
          Function.update channel.channelInfo.multiKeyStatusList keyIndex (some .manuallyDisabled) } }

def enableKey (now : Int) (channel : Channel) (keyIndex : Option Int) : Except String Channel :=
  (checkKeyIndex channel keyIndex "No key index specified to enable").map fun keyIndex =>
    restoreMultiKeyChannelIfAvailable now { channel with channelInfo :=
      { channel.channelInfo with
        multiKeyStatusList := Function.update channel.channelInfo.multiKeyStatusList keyIndex none
        multiKeyDisabledTime := Function.update channel.channelInfo.multiKeyDisabledTime keyIndex none
        multiKeyDisabledReason := Function.update channel.channelInfo.multiKeyDisabledReason keyIndex none } }

def enableAllKeys (now : Int) (channel : Channel) : Channel :=
  restoreMultiKeyChannelIfAvailable now { channel with channelInfo :=
    { channel.channelInfo with
      multiKeyStatusList := fun _ => none
      multiKeyDisabledTime := fun _ => none
      multiKeyDisabledReason := fun _ => none } }

def disableAllKeys (now : Int) (channel : Channel) : Except String Channel :=
  let info := channel.channelInfo
  let enabled := fun i => decide (i < info.multiKeySize) && decide (getStatus info.multiKeyStatusList i = .enabled)
  if (List.range info.multiKeySize).any enabled = false then .error "No keys to disable"
  else
    let statusList := fun i => if enabled i then some .manuallyDisabled else info.multiKeyStatusList i
    .ok (disableMultiKeyChannelIfUnavailable now { channel with channelInfo :=
      { info with multiKeyStatusList := statusList } })

def deleteKey (now : Int) (channel : Channel) (keyIndex : Option Int) : Except String Channel :=
  (checkKeyIndex channel keyIndex "No key index specified to delete").bind fun keyIndex =>
    let kept := keepKeys channel.channelInfo (· = keyIndex) (fun _ => true) 0 channel.getKeys noneKept
    if kept.remainingKeys = [] then .error "Cannot delete the last key"
    else .ok (disableMultiKeyChannelIfUnavailable now (channel.keeping kept))

/-- Only automatically disabled keys go; an enabled key loses its time and reason. -/
def deleteDisabledKeys (now : Int) (channel : Channel) : Except String Channel :=
  let status := getStatus channel.channelInfo.multiKeyStatusList
  if (List.range channel.getKeys.length).any (fun i => status i = .autoDisabled) = false then
    .error "No auto-disabled keys to delete"
  else
    .ok (disableMultiKeyChannelIfUnavailable now (channel.keeping
      (keepKeys channel.channelInfo (fun i => status i = .autoDisabled) (fun i => status i ≠ .enabled) 0
        channel.getKeys noneKept)))

inductive KeyAction where
  | disableKey (keyIndex : Option Int)
  | enableKey (keyIndex : Option Int)
  | enableAllKeys
  | disableAllKeys
  | deleteKey (keyIndex : Option Int)
  | deleteDisabledKeys
deriving DecidableEq

def KeyAction.apply (now : Int) (channel : Channel) : KeyAction → Except String Channel
  | .disableKey keyIndex => Channels.disableKey now channel keyIndex
  | .enableKey keyIndex => Channels.enableKey now channel keyIndex
  | .enableAllKeys => .ok (Channels.enableAllKeys now channel)
  | .disableAllKeys => Channels.disableAllKeys now channel
  | .deleteKey keyIndex => Channels.deleteKey now channel keyIndex
  | .deleteDisabledKeys => Channels.deleteDisabledKeys now channel

/-- `ManageMultiKeys` on a loaded copy: the row after it. -/
def manageMultiKeys (now : Int) (row channel : Channel) (action : KeyAction) : Except String Channel :=
  if channel.channelInfo.isMultiKey = false then .error "This channel is not in multi-key mode"
  else (action.apply now channel).map (update row)

end NewApi.Code.Channels
