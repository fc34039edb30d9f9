import NewApi.Code.ChannelCache

/-!
# The choice of a channel and the relay's retries

`service/channel_select.go` and the retry loop of `controller/relay.go`. The channels may be different at every choice.
-/

namespace NewApi.Code.Channels

structure RetryParam where
  tokenGroup : String
  retry : Nat
  resetNextTry : Bool
deriving DecidableEq

def RetryParam.increaseRetry (param : RetryParam) : RetryParam :=
  if param.resetNextTry then { param with resetNextTry := false } else { param with retry := param.retry + 1 }

structure Context where
  autoGroups : List String
  crossGroupRetry : Bool
  autoGroupIndex : Option Nat
deriving DecidableEq

/-- `index` is that of an auto group, `priorityRetry` the level asked for. -/
structure Choice where
  channel : Channel
  selectGroup : String
  groupIndex : Option Nat
  priorityRetry : Nat
  source : Source

structure Selection where
  choice : Option Choice
  param : RetryParam
  autoGroupIndex : Option Nat

def searchGroups (retryTimes : Int) (crossGroupRetry : Bool) (request : Request) (source : Source)
    (startGroupIndex : Nat) : Nat → List String → RetryParam → Option Nat → Selection
  | _, [], param, index => ⟨none, param, index⟩
  | i, autoGroup :: autoGroups, param, _ =>
    let priorityRetry := if startGroupIndex < i then 0 else param.retry
    match (source.getRandomSatisfiedChannel request autoGroup priorityRetry).1 with
    | none =>
      searchGroups retryTimes crossGroupRetry request source startGroupIndex (i + 1) autoGroups
        { param with retry := 0 } (some (i + 1))
    | some channel =>
      let choice := ⟨channel, autoGroup, some i, priorityRetry, source⟩
      if crossGroupRetry = true ∧ retryTimes ≤ priorityRetry then
        ⟨some choice, { param with retry := 0, resetNextTry := true }, some (i + 1)⟩
      else ⟨some choice, param, some i⟩

def cacheGetRandomSatisfiedChannel (retryTimes : Int) (request : Request) (source : Source) (context : Context)
    (param : RetryParam) : Except String Selection :=
  if param.tokenGroup = "auto" then
    if context.autoGroups = [] then .error "auto groups is not enabled"
    else
      let startGroupIndex := context.autoGroupIndex.getD 0
      .ok (searchGroups retryTimes context.crossGroupRetry request source startGroupIndex startGroupIndex
        (context.autoGroups.drop startGroupIndex) param context.autoGroupIndex)
  else
    match source.getRandomSatisfiedChannel request param.tokenGroup param.retry with
    | (_, some error) => .error error
    | (channel, none) =>
      .ok ⟨channel.map fun channel => ⟨channel, param.tokenGroup, none, param.retry, source⟩, param,
        context.autoGroupIndex⟩

/-! ## The first channel -/

/-- The pinned channel (`some none`: unusable), the session's, and the groups that serve the model. -/
structure FirstChoice where
  pin : Option (Option Channel)
  found : Bool
  preferred : Option Channel
  strict : Bool
  isChannelEnabledForGroupModel : String → Channel → Bool
  source : Source

def FirstChoice.affinity (first : FirstChoice) (context : Context) (tokenGroup : String) : Option Choice :=
  first.preferred.bind fun channel =>
    if tokenGroup = "auto" then
      (context.autoGroups.findIdx? fun group => first.isChannelEnabledForGroupModel group channel).bind fun i =>
        context.autoGroups[i]?.map fun group => ⟨channel, group, some i, 0, first.source⟩
    else if first.isChannelEnabledForGroupModel tokenGroup channel then
      some ⟨channel, tokenGroup, none, 0, first.source⟩
    else none

/-- As the distributor calls it, with a retry parameter of its own. -/
def selectChannelForRequest (retryTimes : Int) (request : Request) (context : Context) (tokenGroup : String)
    (first : FirstChoice) : Option (Choice × Option Nat) :=
  match first.pin with
  | some pinned => pinned.map fun channel => (⟨channel, "", none, 0, first.source⟩, context.autoGroupIndex)
  | none =>
    match first.affinity context tokenGroup with
    | some choice => some (choice, context.autoGroupIndex)
    | none =>
      if first.found = true ∧ first.strict = true then none
      else
        match cacheGetRandomSatisfiedChannel retryTimes request first.source context ⟨tokenGroup, 0, false⟩ with
        | .error _ => none
        | .ok selection =>
          selection.choice.bind fun choice =>
            if channelSatisfiesFilters choice.channel request.modelName request.filters then
              some (choice, selection.autoGroupIndex)
            else none

/-! ## The retry loop -/

/-- One pass of the loop as the rest of the system decides it. -/
structure Turn where
  source : Source
  setup : Bool
  prepared : Bool
  initChannelMeta : Bool
  decideRelayRetry : Int → Bool

structure RelayState where
  context : Context
  param : RetryParam
  channelMeta : Bool
deriving DecidableEq

def getChannel (retryTimes : Int) (request : Request) (preset : Choice) (s : RelayState) (turn : Turn) :
    Option (Choice × RelayState) :=
  if s.channelMeta then
    match cacheGetRandomSatisfiedChannel retryTimes request turn.source s.context s.param with
    | .error _ => none
    | .ok selection =>
      selection.choice.bind fun choice =>
        if turn.setup then
          some (choice, { s with param := selection.param, context :=
            { s.context with autoGroupIndex := selection.autoGroupIndex } })
        else none
  else some (preset, s)

def RelayState.next (s : RelayState) (initChannelMeta : Bool) : RelayState :=
  { s with param := s.param.increaseRetry, channelMeta := s.channelMeta || initChannelMeta }

def relayLoop (retryTimes : Int) (request : Request) (preset : Choice) : RelayState → List Turn → List Choice
  | _, [] => []
  | s, turn :: turns =>
    if retryTimes < s.param.retry then []
    else
      match getChannel retryTimes request preset s turn with
      | none => []
      | some (choice, s') =>
        if turn.prepared then
          choice ::
            if turn.decideRelayRetry (retryTimes - s'.param.retry) then
              relayLoop retryTimes request preset (s'.next turn.initChannelMeta) turns
            else []
        else []

def relay (retryTimes : Int) (request : Request) (context : Context) (tokenGroup : String) (first : FirstChoice)
    (turns : List Turn) : List Choice :=
  match selectChannelForRequest retryTimes request context tokenGroup first with
  | none => []
  | some (preset, autoGroupIndex) =>
    relayLoop retryTimes request preset
      ⟨{ context with autoGroupIndex }, ⟨tokenGroup, 0, false⟩, false⟩ turns

end NewApi.Code.Channels
