import NewApi.Code.Channel
import NewApi.Lib.Table

/-!
# Channels and their routing rows

What changes a channel and its `abilities` in `model/{channel,ability,channel_priority}.go`. GORM leaves out zero values in
an update, and fills in a column's default in a new row.
-/

namespace NewApi.Code.Channels

open Table

structure AbilityRow where
  group : String
  model : String
  channelId : Int
  enabled : Bool
  priority : Option Int
  weight : UInt64
  tag : Option String
deriving DecidableEq

def AbilityRow.key (row : AbilityRow) : String × String × Int := (row.group, row.model, row.channelId)

abbrev AbilityTable := Keyed AbilityRow.key

structure Routing where
  channels : Keyed Channel.id
  abilities : AbilityTable

/-! ## The rows of one channel -/

def abilitySetKey (pair : String × String) : String := pair.1 ++ "|" ++ pair.2

def distinctPairs : List (String × String) → List String → List (String × String)
  | [], _ => []
  | pair :: rest, abilitySet =>
    if abilitySetKey pair ∈ abilitySet then distinctPairs rest abilitySet
    else pair :: distinctPairs rest (abilitySetKey pair :: abilitySet)

/-- A new row without a priority gets the default of the column. -/
def Channel.ability (channel : Channel) (pair : String × String) : AbilityRow :=
  { group := pair.1
    model := pair.2
    channelId := channel.id
    enabled := channel.status = .enabled
    priority := some (channel.priority.getD 0)
    weight := UInt64.ofInt channel.getWeight
    tag := channel.tag }

def namePairs (models groups : List String) : List (String × String) :=
  models.flatMap fun model => groups.map fun group => (group, model)

def Channel.abilitiesFor (channel : Channel) (models : List String) : List AbilityRow :=
  (distinctPairs (namePairs models channel.groupNames) []).map channel.ability

/-- The text of the models is split as it is. -/
def Channel.addAbilities (channel : Channel) (t : AbilityTable) : AbilityTable :=
  t.insertAll (channel.abilitiesFor (splitNames channel.models))

def Channel.updateAbilities (channel : Channel) (t : AbilityTable) : AbilityTable :=
  (t.delete fun row => row.channelId = channel.id).insertAll (channel.abilitiesFor channel.getModels)

def updateAbilityStatus (t : AbilityTable) (channelId : Int) (status : Bool) : AbilityTable :=
  t.update (fun row => row.channelId = channelId) (fun row => { row with enabled := status }) fun _ => rfl

def updateAbilityStatusByTag (t : AbilityTable) (tag : String) (status : Bool) : AbilityTable :=
  t.update (fun row => row.tag = some tag) (fun row => { row with enabled := status }) fun _ => rfl

/-- The weight is no pointer here, so a zero is left out. -/
def updateAbilityByTag (t : AbilityTable) (tag : String) (newTag : Option String) (priority : Option Int)
    (weight : Option Nat) : AbilityTable :=
  let newWeight := UInt64.ofNat (weight.getD 0)
  t.update (fun row => row.tag = some tag)
    (fun row => { row with
      tag := newTag <|> row.tag
      priority := priority <|> row.priority
      weight := if newWeight = 0 then row.weight else newWeight }) fun _ => rfl

/-! ## Inserts and edits -/

def Channel.withDefaults (channel : Channel) : Channel :=
  { channel with
    status := if channel.status = .unknown then .enabled else channel.status
    weight := some (channel.weight.getD 0)
    group := if channel.group = "" then "default" else channel.group
    priority := some (channel.priority.getD 0) }

variable (s : Routing)

/-- `Insert`, and `BatchInsertChannels` for each channel. A taken id is an error. -/
def Routing.insert (channel : Channel) : Routing :=
  if channel.id ∈ s.channels.rows.map Channel.id then s
  else
    { channels := s.channels.insert channel.withDefaults
      abilities := channel.withDefaults.addAbilities s.abilities }

/-- `Update` of a channel that exists. The rows come from the channel as it is read back. -/
def Routing.update (channel : Channel) : Routing :=
  match s.channels.find channel.id with
  | none => s
  | some row =>
    { channels := s.channels.update (fun row => row.id = channel.id) (fun row => Channels.update row channel)
        fun _ => rfl
      abilities := (Channels.update row channel).updateAbilities s.abilities }

/-! ## Status -/

/-- `cacheStops`: the call ends at the cached channel. The rows follow the status that was asked for. -/
def Routing.updateChannelStatus (now : Int) (cacheStops : Bool) (channelId : Int) (usingKey : String)
    (status : ChannelStatus) (reason : String) : Bool × Routing :=
  if cacheStops then (false, s)
  else
    match s.channels.find channelId with
    | none => (false, s)
    | some channel =>
      match changeStatus now channel usingKey status reason with
      | none => (false, s)
      | some changed =>
        let shouldUpdateAbilities : Bool := channel.channelInfo.isMultiKey = false ∨ channel.status ≠ changed.status
        (true,
          { channels := s.channels.update (fun row => row.id = channelId) (fun row => saveStatusState row changed)
              fun _ => rfl
            abilities :=
              if shouldUpdateAbilities then updateAbilityStatus s.abilities channelId (status = .enabled)
              else s.abilities })

def Routing.setStatusByTag (tag : String) (status : ChannelStatus) : Routing :=
  { channels := s.channels.update (fun row => row.tag = some tag) (fun row => { row with status }) fun _ => rfl
    abilities := updateAbilityStatusByTag s.abilities tag (status = .enabled) }

def Routing.enableChannelByTag (tag : String) : Routing := s.setStatusByTag tag .enabled

/-- The loop over channels without an enabled key; it ends at the first failure. -/
def Routing.disableExhausted (now : Int) (cacheStops : Int → Bool) : List Channel → Routing → Bool × Routing
  | [], s => (true, s)
  | channel :: rest, s =>
    if channel.channelInfo.isMultiKey = true ∧
        channel.getOtherInfo.statusReason = some channelStatusReasonAllKeysDisabled then
      let answer := s.updateChannelStatus now (cacheStops channel.id) channel.id "" .manuallyDisabled
        "manual tag operation"
      if answer.1 then disableExhausted now cacheStops rest answer.2 else (false, answer.2)
    else disableExhausted now cacheStops rest s

def Routing.disableChannelByTag (now : Int) (cacheStops : Int → Bool) (tag : String) : Routing :=
  let channels := s.channels.rows.filter fun channel => channel.tag = some tag
  let answer := Routing.disableExhausted now cacheStops channels s
  if answer.1 then answer.2.setStatusByTag tag .manuallyDisabled else answer.2

/-! ## Edits by tag -/

structure TagEdit where
  newTag : Option String
  models : Option String
  group : Option String
  priority : Option Int
  weight : Option Nat
deriving DecidableEq

def TagEdit.shouldReCreateAbilities (e : TagEdit) : Bool := e.models.getD "" ≠ "" ∨ e.group.getD "" ≠ ""

def TagEdit.updatedTag (e : TagEdit) (tag : String) : String := e.newTag.getD tag

/-- Here the weight is a pointer. -/
def TagEdit.apply (e : TagEdit) (channel : Channel) : Channel :=
  { channel with
    tag := e.newTag <|> channel.tag
    models := if e.models.getD "" = "" then channel.models else e.models.getD ""
    group := if e.group.getD "" = "" then channel.group else e.group.getD ""
    priority := e.priority <|> channel.priority
    weight := e.weight <|> channel.weight }

def Routing.editChannelByTag (tag : String) (e : TagEdit) : Routing :=
  let channels := s.channels.update (fun row => row.tag = some tag) e.apply fun _ => rfl
  { channels
    abilities :=
      if e.shouldReCreateAbilities then
        (channels.rows.filter fun channel => channel.tag = some (e.updatedTag tag)).foldl
          (fun abilities channel => channel.updateAbilities abilities) s.abilities
      else updateAbilityByTag s.abilities tag e.newTag e.priority e.weight }

/-! ## Priorities -/

structure ChannelPriorityChange where
  id : Int
  priority : Option Int
deriving DecidableEq

def Routing.changePriority (change : ChannelPriorityChange) : Routing :=
  { channels := s.channels.update (fun row => row.id = change.id)
      (fun row => { row with priority := change.priority }) fun _ => rfl
    abilities := s.abilities.update (fun row => row.channelId = change.id)
      (fun row => { row with priority := change.priority }) fun _ => rfl }

def Routing.reorderChannelPriority (changes : List ChannelPriorityChange) : Routing :=
  changes.foldl Routing.changePriority s

/-! ## Operations -/

inductive Operation where
  | insert (channel : Channel)
  | update (channel : Channel)
  | updateStatus (now : Int) (cacheStops : Bool) (channelId : Int) (usingKey : String) (status : ChannelStatus)
    (reason : String)
  | enableTag (tag : String)
  | disableTag (now : Int) (cacheStops : Int → Bool) (tag : String)
  | editTag (tag : String) (edit : TagEdit)
  | reorder (changes : List ChannelPriorityChange)

def Routing.step : Operation → Routing
  | .insert channel => s.insert channel
  | .update channel => s.update channel
  | .updateStatus now cacheStops channelId usingKey status reason =>
    (s.updateChannelStatus now cacheStops channelId usingKey status reason).2
  | .enableTag tag => s.enableChannelByTag tag
  | .disableTag now cacheStops tag => s.disableChannelByTag now cacheStops tag
  | .editTag tag edit => s.editChannelByTag tag edit
  | .reorder changes => s.reorderChannelPriority changes

end NewApi.Code.Channels

