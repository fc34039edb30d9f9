import Mathlib.Data.List.Sort
import Mathlib.Data.List.Dedup
import NewApi.Code.Channel

/-!
# The channels that a request may use

`model/channel_cache.go`, the selection of `model/ability.go` and the filters of `model/channel_constraint.go`.
-/

namespace NewApi.Code.Channels

open GoTime

/-! ## Filters -/

inductive ChannelFilterKind where
  | excludedChannels | requestPath | taskPluginEndpoint | taskPluginIdentity | responsesWebSocket
deriving DecidableEq

structure ChannelFilter where
  kind : ChannelFilterKind
  excludedChannelIDs : List Int
  test : Channel → String → Bool

def filterEvalOrder : List ChannelFilterKind :=
  [.excludedChannels, .requestPath, .taskPluginEndpoint, .taskPluginIdentity, .responsesWebSocket]

def channelMatchesFilter (channel : Channel) (modelName : String) (filter : ChannelFilter) : Bool :=
  match filter.kind with
  | .excludedChannels => !filter.excludedChannelIDs.contains channel.id
  | _ => filter.test channel modelName

def channelSatisfiesFilters (channel : Channel) (modelName : String) (filters : List ChannelFilter) : Bool :=
  filterEvalOrder.all fun kind =>
    filters.all fun filter => filter.kind ≠ kind || channelMatchesFilter channel modelName filter

def filtersByKind (filters : List ChannelFilter) (kind : ChannelFilterKind) : List ChannelFilter :=
  filters.filter fun filter => filter.kind = kind

/-- An unknown channel is left for the consistency error where only the path is asked for. -/
def candidatePassesKindFilters (channel : Option Channel) (modelName : String) (kind : ChannelFilterKind)
    (filters : List ChannelFilter) : Bool :=
  match channel with
  | none => kind = .requestPath
  | some channel => filters.all (channelMatchesFilter channel modelName)

/-! ## The memory cache -/

structure ChannelCache where
  group2model2channels : String → String → List Int
  channelsIDM : Int → Option Channel

def filterKinds (cache : ChannelCache) (modelName : String) (filters : List ChannelFilter) :
    List ChannelFilterKind → List Int → List Int
  | [], kept => kept
  | kind :: kinds, kept =>
    let kindFilters := filtersByKind filters kind
    if kindFilters = [] then filterKinds cache modelName filters kinds kept
    else
      let next := kept.filter fun id => candidatePassesKindFilters (cache.channelsIDM id) modelName kind kindFilters
      if kept ≠ [] ∧ next = [] then next else filterKinds cache modelName filters kinds next

variable (cache : ChannelCache) (store : AbilityStore)

def filterCandidateIDs (ids : List Int) (modelName : String) (filters : List ChannelFilter) : List Int :=
  if ids = [] then ids else filterKinds cache modelName filters filterEvalOrder ids

def sortedUniquePriorities (priorities : List Int) : List Int := priorities.dedup.insertionSort (· ≥ ·)

def targetPriority (priorities : List Int) (retry : Nat) : Option Int :=
  let sorted := sortedUniquePriorities priorities
  sorted[if sorted.length ≤ retry then sorted.length - 1 else retry]?

/-- Go's `rand.Intn`, which panics where there is nothing to draw from. -/
def intn (n : Int) (draw : Nat) : Except String Int :=
  if n ≤ 0 then .error "invalid argument to Intn" else .ok (draw % n.toNat : Nat)

def pickByWeight (smoothingFactor smoothingAdjustment : Int) : Int → List Channel → Except String Channel
  | _, [] => .error "channel not found"
  | randomWeight, channel :: channels =>
    let randomWeight := wrap64 (randomWeight -
      wrap64 (wrap64 (channel.getWeight * smoothingFactor) + smoothingAdjustment))
    if randomWeight < 0 then .ok channel
    else pickByWeight smoothingFactor smoothingAdjustment randomWeight channels

def smoothing (targetChannels : List Channel) : Int × Int × Int :=
  let sumWeight := targetChannels.foldl (fun sum channel => wrap64 (sum + channel.getWeight)) 0
  let count : Int := targetChannels.length
  if sumWeight = 0 then (wrap64 (count * 100), 1, 100)
  else if sumWeight.tdiv count < 10 then (sumWeight, 100, 0)
  else (sumWeight, 1, 0)

/-- A panic is an error with its text. -/
def weighted (draw : Nat) (targetChannels : List Channel) : Except String Channel :=
  let (sumWeight, smoothingFactor, smoothingAdjustment) := smoothing targetChannels
  match intn (wrap64 (sumWeight * smoothingFactor)) draw with
  | .error e => .error e
  | .ok randomWeight => pickByWeight smoothingFactor smoothingAdjustment randomWeight targetChannels

abbrev Answer := Option Channel × Option String

def consistencyError (id : Int) : String :=
  "database consistency error: channel #" ++ toString id ++ " does not exist, please contact the administrator"

/-- `routingMatchModelName` is the model's name without its modifiers. -/
structure Request where
  modelName : String
  routingMatchModelName : String
  filters : List ChannelFilter

def ChannelCache.candidates (request : Request) (group : String) : List Int :=
  let exact := filterCandidateIDs cache (cache.group2model2channels group request.modelName) request.modelName
    request.filters
  if exact = [] then
    filterCandidateIDs cache (cache.group2model2channels group request.routingMatchModelName) request.modelName
      request.filters
  else exact

/-- `draw` is not yet below the total weight. -/
def chooseByPriority (modelName group : String) (draw retry : Nat) (channels : List Channel) : Answer :=
  match targetPriority (channels.map Channel.getPriority) retry with
  | none => (none, none)
  | some priority =>
    match channels.filter fun channel => channel.getPriority = priority with
    | [] => (none, some ("no channel found, group: " ++ group ++ ", model: " ++ modelName ++ ", priority: " ++
        toString priority))
    | targetChannels =>
      match weighted draw targetChannels with
      | .ok channel => (some channel, none)
      | .error e => (none, some e)

def ChannelCache.getRandomSatisfiedChannel (request : Request) (draw : Nat) (group : String) (retry : Nat) : Answer :=
  match cache.candidates request group with
  | [] => (none, none)
  | [id] =>
    match cache.channelsIDM id with
    | some channel => (some channel, none)
    | none => (none, some (consistencyError id))
  | ids =>
    match ids.find? fun id => (cache.channelsIDM id).isNone with
    | some id => (none, some (consistencyError id))
    | none => chooseByPriority request.modelName group draw retry (ids.filterMap cache.channelsIDM)

/-! ## The abilities in the database -/

structure Ability where
  channelId : Int
  priority : Option Int
  weight : Nat
deriving DecidableEq

def Ability.getPriority (ability : Ability) : Int := ability.priority.getD 0

/-- The enabled abilities in the order of the query, and the channels. -/
structure AbilityStore where
  abilities : String → String → List Ability
  channels : Int → Option Channel

def filterAbilitiesByConstraints (abilities : List Ability) (modelName : String) (filters : List ChannelFilter)
    : List Ability :=
  abilities.filter fun ability =>
    (store.channels ability.channelId).any fun channel => channelSatisfiesFilters channel modelName filters

def AbilityStore.candidates (request : Request) (group : String) : List Ability :=
  let exact := filterAbilitiesByConstraints store (store.abilities group request.modelName) request.modelName
    request.filters
  let normalized := request.routingMatchModelName
  if exact = [] ∧ normalized ≠ "" ∧ normalized ≠ request.modelName then
    filterAbilitiesByConstraints store (store.abilities group normalized) request.modelName request.filters
  else exact

def pickAbility : Int → List Ability → Option Ability
  | _, [] => none
  | weight, ability :: abilities =>
    let weight := wrap64 (weight - wrap64 (wrap64 ability.weight + 10))
    if weight ≤ 0 then some ability else pickAbility weight abilities

/-- The sum of `weight + 10`; a `uint` has no sign. -/
def abilityWeightSum (abilities : List Ability) : Nat :=
  abilities.foldl (fun sum ability => (sum + (ability.weight + 10)) % 2 ^ 64) 0

def blankChannel (id : Int) : Channel :=
  ⟨id, "", .unknown, none, "", "", none, none, none,
    ⟨false, 0, fun _ => none, fun _ => none, fun _ => none, 0, .other ""⟩, []⟩

/-- `DB.First`: with an error the channel has its id only. -/
def AbilityStore.firstChannel (id : Int) : Answer :=
  match store.channels id with
  | some channel => (some channel, none)
  | none => (some (blankChannel id), some "record not found")

/-- The random choice of `GetChannel`. A panic is an error with its text. -/
def AbilityStore.drawChannel (weightSum : Int) (draw : Nat) (abilities : List Ability) : Answer :=
  match intn weightSum draw with
  | .error e => (none, some e)
  | .ok weight => store.firstChannel ((pickAbility weight abilities).elim 0 Ability.channelId)

def AbilityStore.getChannel (request : Request) (draw : Nat) (group : String) (retry : Nat) : Answer :=
  match targetPriority ((store.candidates request group).map Ability.getPriority) retry with
  | none => (none, none)
  | some priority =>
    let abilities := (store.candidates request group).filter fun ability => ability.getPriority = priority
    store.drawChannel (wrap64 (abilityWeightSum abilities)) draw abilities

/-! ## Where a selection looks -/

/-- The cache, the database where it is off, or a database that cannot be read. -/
inductive Source where
  | memory (cache : ChannelCache) (draw : String → Nat)
  | database (store : AbilityStore) (draw : String → Nat)
  | unreadable (error : String)

def Source.getRandomSatisfiedChannel (source : Source) (request : Request) (group : String) (retry : Nat) : Answer :=
  match source with
  | .memory cache draw => cache.getRandomSatisfiedChannel request (draw group) group retry
  | .database store draw => store.getChannel request (draw group) group retry
  | .unreadable error => (none, some error)

/-! ## Rebuilds and updates of the cache -/

def Channel.occurrences (channel : Channel) (group model : String) : List Int :=
  if channel.status = .enabled then
    (channel.groupNames.filter (· = group)).flatMap fun _ =>
      (channel.getModels.filter (· = model)).map fun _ => channel.id
  else []

/-- Equal priorities stay in the order of the table; the source leaves this to its sort. -/
def sortByPriority (channelsIDM : Int → Option Channel) (ids : List Int) : List Int :=
  ids.insertionSort fun a b =>
    (channelsIDM a).elim 0 Channel.getPriority ≥ (channelsIDM b).elim 0 Channel.getPriority

/-- Keys are parsed once, and the polling cursor is kept. -/
def carryOver (old : Option Channel) (channel : Channel) : Channel :=
  if channel.channelInfo.isMultiKey then
    let parsed := { channel with keys := channel.getKeys }
    match old with
    | some old =>
      if channel.channelInfo.multiKeyMode = .polling ∧ old.channelInfo.isMultiKey = true ∧
          old.channelInfo.multiKeyMode = .polling then
        { parsed with channelInfo :=
            { parsed.channelInfo with multiKeyPollingIndex := old.channelInfo.multiKeyPollingIndex } }
      else parsed
    | none => parsed
  else channel

structure ChannelTable where
  rows : List Channel
  unique : (rows.map Channel.id).Nodup

/-- It is `none` where a group of an enabled channel has no ability: the source writes into a nil map. -/
def initChannelCache (old : ChannelCache) (channels : ChannelTable) (abilityGroups : List String) :
    Option ChannelCache :=
  if channels.rows.all fun channel => channel.status ≠ .enabled || channel.getModels = [] ||
      channel.groupNames.all fun group => abilityGroups.contains group then
    let newChannelId2channel := fun id => channels.rows.find? fun channel => channel.id = id
    some {
      group2model2channels := fun group model =>
        sortByPriority newChannelId2channel (channels.rows.flatMap fun channel => channel.occurrences group model)
      channelsIDM := fun id => (newChannelId2channel id).map (carryOver (old.channelsIDM id)) }
  else none

def cacheUpdateChannelStatus (id : Int) (status : ChannelStatus) : ChannelCache :=
  { group2model2channels :=
      if status = .enabled then cache.group2model2channels
      else fun group model => (cache.group2model2channels group model).erase id
    channelsIDM := fun k =>
      if k = id then (cache.channelsIDM k).map fun channel => { channel with status } else cache.channelsIDM k }

def cacheUpdateChannel (channel : Channel) : ChannelCache :=
  { cache with channelsIDM := fun k => if k = channel.id then some channel else cache.channelsIDM k }

end NewApi.Code.Channels

