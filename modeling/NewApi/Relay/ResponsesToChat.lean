import NewApi.Code.ResponsesToChat

/-!
# The Chat history of a Responses request

Tool messages come right after their assistant message if the outputs follow the calls that they answer.
-/

namespace NewApi.Relay.ResponsesToChat

open Code.Relay

variable {ν : Type}

/-! ## Items -/

def isCall (t : ResponsesTarget ν) (item : Item ν) : Bool := isFunctionCall t item || isCustomToolCall t item

def isMessage (t : ResponsesTarget ν) (item : Item ν) : Bool :=
  trimmed t item "type" = "" ∨ trimmed t item "type" = "message"

/-- Reasoning items and the like have no place in Chat. -/
def known (t : ResponsesTarget ν) (item : Item ν) : Bool := isCall t item || isOutput t item || isMessage t item

def messageRole (t : ResponsesTarget ν) (item : Item ν) : String :=
  if trimmed t item "role" = "" then "user" else trimmed t item "role"

def messageContent (t : ResponsesTarget ν) (item : Item ν) : Json ν :=
  (responsesInputContentToChatContent t (Json.get item "content")).1

def callArguments (t : ResponsesTarget ν) (item : Item ν) : String :=
  if isFunctionCall t item then responsesArgumentsString t (Json.get item "arguments")
  else t.marshal (.obj [("input", .str (responsesArgumentsString t (Json.get item "input")))])

def toolCallOf (t : ResponsesTarget ν) (item : Item ν) : ToolCall :=
  ⟨responsesCallID t item, responsesCallName t item, callArguments t item⟩

def outputMessage (t : ResponsesTarget ν) (item : Item ν) : ChatMessage ν :=
  ⟨"tool", (responsesToolOutputToChat t (Json.get item "output")).1, [], trimmed t item "call_id"⟩

def outputMedia (t : ResponsesTarget ν) (item : Item ν) : List (Json ν) :=
  (responsesToolOutputToChat t (Json.get item "output")).2.1

def answers (t : ResponsesTarget ν) (output call : Item ν) : Bool := responsesCallID t call = trimmed t output "call_id"

/-- Every output answers a call of the run before it. -/
def Batched (t : ResponsesTarget ν) : List (Item ν) → Bool → List (Item ν) → Prop
  | _, _, [] => True
  | batch, answered, item :: items =>
    if isOutput t item then (∃ call ∈ batch, answers t item call) ∧ Batched t batch true items
    else if isCall t item then Batched t (if answered then [item] else batch ++ [item]) false items
    else Batched t [] false items

instance decidableBatched (t : ResponsesTarget ν) :
    ∀ (batch : List (Item ν)) (answered : Bool) (items : List (Item ν)), Decidable (Batched t batch answered items)
  | _, _, [] => isTrue trivial
  | batch, answered, item :: items => by
    have := decidableBatched t batch true items
    have := decidableBatched t (if answered then [item] else batch ++ [item]) false items
    have := decidableBatched t [] false items
    unfold Batched
    infer_instance

/-! ## Histories -/

/-- A message item or a made up one, with its calls and their outputs. -/
structure Group (t : ResponsesTarget ν) where
  item : Option (Item ν)
  calls : List (Item ν)
  outputs : List (Item ν)
  isMessage_item : ∀ message ∈ item, isMessage t message = true
  isCall_calls : ∀ call ∈ calls, isCall t call = true
  isOutput_outputs : ∀ output ∈ outputs, isOutput t output = true
  calls_of_none : item = none → calls ≠ []
  assistant_of_calls : calls ≠ [] → ∀ message ∈ item, messageRole t message = "assistant"
  answered : ∀ output ∈ outputs, ∃ call ∈ calls, answers t output call

namespace Group

variable {t : ResponsesTarget ν}

def items (g : Group t) : List (Item ν) := g.item.toList ++ g.calls ++ g.outputs

def head (g : Group t) : ChatMessage ν :=
  match g.item with
  | some message => ⟨messageRole t message, messageContent t message, g.calls.map (toolCallOf t), ""⟩
  | none => ⟨"assistant", .null, g.calls.map (toolCallOf t), ""⟩

def media (g : Group t) : List (Json ν) := g.outputs.flatMap (outputMedia t)

def told (g : Group t) : List (ChatMessage ν) := g.head :: g.outputs.map (outputMessage t)

def messages (g : Group t) : List (ChatMessage ν) :=
  g.told ++ if g.media = [] then [] else [⟨"user", .arr g.media, [], ""⟩]

end Group

/-- A message item or the calls of a batch head a group; then come the tool messages and their media. -/
def Valid (t : ResponsesTarget ν) (items : List (Item ν)) (messages : List (ChatMessage ν)) : Prop :=
  ∃ groups : List (Group t), items.filter (known t) = groups.flatMap Group.items ∧
    messages = groups.flatMap Group.messages

/-! ## One item -/

section Kinds

variable {t : ResponsesTarget ν} {item : Item ν}

theorem isOutput_of_isCall (h : isCall t item = true) : isOutput t item = false := by
  by_contra hout
  simp only [isCall, isFunctionCall, isCustomToolCall, isOutput, Bool.or_eq_true, decide_eq_true_eq,
    Bool.not_eq_false] at h hout
  rcases h with h | h <;> rw [h] at hout <;> revert hout <;> decide

theorem isMessage_of_known (h : known t item = true) (hout : isOutput t item = false) (hcall : isCall t item = false) :
    isMessage t item = true := by
  simpa [known, hout, hcall] using h

theorem itemToChat_call (hcall : isCall t item = true) (messages : List (ChatMessage ν)) :
    responsesInputItemToChatMessages t item messages =
      if responsesCallName t item = "" then
        .error (if isFunctionCall t item then "function_call item is missing name"
          else "custom_tool_call item is missing name")
      else .ok (appendToolCallToLastAssistant messages (toolCallOf t item), [], []) := by
  unfold responsesInputItemToChatMessages
  by_cases hfun : isFunctionCall t item = true
  · rw [if_pos hfun, if_pos hfun]
    unfold responsesFunctionCallItemToChatToolCall toolCallOf callArguments
    rw [if_pos hfun]
    dsimp only
    split <;> rfl
  · have hcustom : isCustomToolCall t item = true := by simpa [isCall, hfun] using hcall
    rw [if_neg hfun, if_neg hfun, if_pos hcustom]
    unfold responsesCustomToolCallItemToChatToolCall toolCallOf callArguments
    rw [if_neg hfun]
    dsimp only
    split <;> rfl

theorem not_call (hcall : isCall t item = false) : ¬ isFunctionCall t item = true ∧ ¬ isCustomToolCall t item = true := by
  simpa [isCall] using hcall

theorem itemToChat_output (hcall : isCall t item = false) (hout : isOutput t item = true)
    (messages : List (ChatMessage ν)) : responsesInputItemToChatMessages t item messages =
      .ok (messages ++ [outputMessage t item], outputMedia t item,
        (responsesToolOutputToChat t (Json.get item "output")).2.2) := by
  unfold responsesInputItemToChatMessages
  rw [if_neg (not_call hcall).1, if_neg (not_call hcall).2, if_pos hout]
  rfl

theorem itemToChat_message (hcall : isCall t item = false) (hout : isOutput t item = false)
    (messages : List (ChatMessage ν)) : responsesInputItemToChatMessages t item messages =
      .ok (messages ++ [⟨messageRole t item, messageContent t item, [], ""⟩], [],
        (responsesInputContentToChatContent t (Json.get item "content")).2) := by
  unfold responsesInputItemToChatMessages
  rw [if_neg (not_call hcall).1, if_neg (not_call hcall).2, if_neg (by simp [hout])]
  rfl

end Kinds

theorem append_assistant (messages : List (ChatMessage ν)) (last : ChatMessage ν) (toolCall : ToolCall)
    (h : last.role = "assistant") : appendToolCallToLastAssistant (messages ++ [last]) toolCall =
      messages ++ [{ last with toolCalls := last.toolCalls ++ [toolCall] }] := by
  simp [appendToolCallToLastAssistant, h]

theorem append_other (messages : List (ChatMessage ν)) (toolCall : ToolCall)
    (h : ∀ last ∈ messages.getLast?, last.role ≠ "assistant") :
    appendToolCallToLastAssistant messages toolCall = messages ++ [⟨"assistant", .null, [toolCall], ""⟩] := by
  unfold appendToolCallToLastAssistant
  split
  · rename_i last hlast
    rw [if_neg (h last hlast)]
  · rfl

/-! ## Groups that grow -/

namespace Group

variable {t : ResponsesTarget ν}

def ofMessage (message : Item ν) (h : isMessage t message = true) : Group t where
  item := some message
  calls := []
  outputs := []
  isMessage_item := by simpa using h
  isCall_calls := by simp
  isOutput_outputs := by simp
  calls_of_none := by simp
  assistant_of_calls := by simp
  answered := by simp

def ofCall (call : Item ν) (h : isCall t call = true) : Group t where
  item := none
  calls := [call]
  outputs := []
  isMessage_item := by simp
  isCall_calls := by simpa using h
  isOutput_outputs := by simp
  calls_of_none := by simp
  assistant_of_calls := by simp
  answered := by simp

def addOutput (g : Group t) (output : Item ν) (h : isOutput t output = true)
    (hanswers : ∃ call ∈ g.calls, answers t output call) : Group t where
  __ := g
  outputs := g.outputs ++ [output]
  isOutput_outputs := by
    intro o ho
    rcases List.mem_append.mp ho with ho | ho
    · exact g.isOutput_outputs o ho
    · rwa [List.mem_singleton.mp ho]
  answered := by
    intro o ho
    rcases List.mem_append.mp ho with ho | ho
    · exact g.answered o ho
    · rwa [List.mem_singleton.mp ho]

variable {g : Group t}

theorem head_role_of_item {message : Item ν} (h : g.item = some message) : g.head.role = messageRole t message := by
  simp [head, h]

theorem head_role_of_none (h : g.item = none) : g.head.role = "assistant" := by simp [head, h]

theorem calls_eq_nil (h : g.head.role ≠ "assistant") : g.calls = [] := by
  by_contra hcalls
  cases hitem : g.item with
  | none => exact h (head_role_of_none hitem)
  | some message => exact h ((head_role_of_item hitem).trans (g.assistant_of_calls hcalls message hitem))

def addCall (g : Group t) (call : Item ν) (h : isCall t call = true) (hrole : g.head.role = "assistant") : Group t where
  __ := g
  calls := g.calls ++ [call]
  isCall_calls := by
    intro c hc
    rcases List.mem_append.mp hc with hc | hc
    · exact g.isCall_calls c hc
    · rwa [List.mem_singleton.mp hc]
  calls_of_none := by simp
  assistant_of_calls := by
    intro _ message hitem
    rw [← head_role_of_item hitem, hrole]
  answered := by
    intro o ho
    obtain ⟨c, hc, hanswers⟩ := g.answered o ho
    exact ⟨c, List.mem_append_left _ hc, hanswers⟩

theorem head_addCall (g : Group t) (call : Item ν) (h : isCall t call = true) (hrole : g.head.role = "assistant") :
    (g.addCall call h hrole).head = { g.head with toolCalls := g.head.toolCalls ++ [toolCallOf t call] } := by
  cases hitem : g.item <;> simp [head, addCall, hitem]

theorem messages_of_silent (h : g.outputs = []) : g.messages = [g.head] := by
  simp [messages, told, media, h]

theorem last_of_outputs (h : g.outputs ≠ []) : ∀ last ∈ g.messages.getLast?, last.role ≠ "assistant" := by
  intro last hlast
  have htold : g.told.getLast? = (g.outputs.map (outputMessage t)).getLast? := by
    rw [told, List.getLast?_cons, List.getLast?_map]
    cases hlastOutput : g.outputs.getLast? with
    | none => exact absurd (List.getLast?_eq_none_iff.mp hlastOutput) h
    | some => rfl
  unfold messages at hlast
  split at hlast
  · rw [List.append_nil, htold, List.getLast?_map, Option.mem_def, Option.map_eq_some_iff] at hlast
    obtain ⟨_, -, rfl⟩ := hlast
    simp [outputMessage]
  · rw [List.getLast?_append, List.getLast?_singleton] at hlast
    obtain rfl := Option.some.inj hlast
    simp

end Group

/-! ## The loop -/

/-- Groups that are done, and one that may still grow. -/
structure Placed (t : ResponsesTarget ν) (first : List (ChatMessage ν)) (groups : List (Group t))
    (last : Option (Group t)) (items : List (Item ν)) (h : ChatHistory ν) (batch : List (Item ν)) (answered : Bool) :
    Prop where
  items : items = (groups ++ last.toList).flatMap Group.items
  messages : h.messages = first ++ groups.flatMap Group.messages ++ last.elim [] Group.told
  pending : h.pendingMedia = last.elim [] Group.media
  batch : batch = last.elim [] Group.calls
  answered : answered = true ↔ ∃ g ∈ last, g.outputs ≠ []
  alone : last = none → groups = []

section Loop

variable {t : ResponsesTarget ν} {first : List (ChatMessage ν)} {groups : List (Group t)} {last : Option (Group t)}
  {items batch : List (Item ν)} {h : ChatHistory ν} {answered : Bool} {item : Item ν}

theorem Placed.flush (hp : Placed t first groups last items h batch answered) :
    h.flush.messages = first ++ (groups ++ last.toList).flatMap Group.messages ∧ h.flush.pendingMedia = [] := by
  unfold ChatHistory.flush
  split
  · rename_i hnil
    refine ⟨?_, hnil⟩
    rw [hp.messages, List.flatMap_append, ← List.append_assoc]
    cases last with
    | none => rfl
    | some g =>
      have hmedia : g.media = [] := hp.pending.symm.trans hnil
      simp [Group.messages, hmedia]
  · rename_i hne
    refine ⟨?_, rfl⟩
    rw [hp.messages, List.flatMap_append, ← List.append_assoc]
    cases last with
    | none => exact absurd hp.pending hne
    | some g =>
      have hmedia : h.pendingMedia = g.media := hp.pending
      rw [hmedia] at hne
      simp [Group.messages, hmedia, hne]

theorem Placed.last_message (hp : Placed t first groups last items h batch answered)
    (hfirst : ∀ message ∈ first, message.role ≠ "assistant")
    (hhead : ∀ g ∈ last, g.outputs = [] → g.head.role ≠ "assistant") :
    ∀ message ∈ (first ++ (groups ++ last.toList).flatMap Group.messages).getLast?, message.role ≠ "assistant" := by
  intro message hmessage
  cases last with
  | none =>
    rw [hp.alone rfl] at hmessage
    simp only [Option.toList_none, List.append_nil, List.flatMap_nil] at hmessage
    exact hfirst message (List.mem_of_getLast? hmessage)
  | some g =>
    have hne : g.messages ≠ [] := by simp [Group.messages, Group.told]
    have hmem : message ∈ g.messages.getLast? := by
      simpa [List.flatMap_append, List.getLast?_append, hne, List.getLast?_eq_some_getLast hne] using hmessage
    by_cases hout : g.outputs = []
    · rw [Group.messages_of_silent hout, List.getLast?_singleton] at hmem
      obtain rfl := Option.some.inj hmem
      exact hhead g rfl hout
    · exact Group.last_of_outputs hout message hmem

variable {h' : ChatHistory ν}

section

variable (hp : Placed t first groups last items h batch answered)
include hp

theorem Placed.add_output (hout : isOutput t item = true) (hcall : isCall t item = false)
    (hanswers : ∃ call ∈ batch, answers t item call) (hadd : h.addItem t item = .ok h')
    : ∃ last', Placed t first groups last' (items ++ [item]) h' batch true := by
  unfold ChatHistory.addItem at hadd
  rw [if_pos hout] at hadd
  dsimp only at hadd
  rw [itemToChat_output hcall hout] at hadd
  obtain rfl := Except.ok.inj hadd
  cases last with
  | none =>
    obtain ⟨_, hmem, -⟩ := hanswers
    rw [hp.batch] at hmem
    simp at hmem
  | some g =>
    rw [hp.batch] at hanswers
    refine ⟨some (g.addOutput item hout hanswers), ?_, ?_, ?_, hp.batch, ?_, by simp⟩
    · simp [hp.items, Group.items, Group.addOutput]
    · simp [hp.messages, Group.told, Group.addOutput, Group.head]
    · simp [hp.pending, Group.media, Group.addOutput]
    · simp [Group.addOutput]

theorem Placed.new_group (g : Group t) (hitems : g.items = [item]) (hout : g.outputs = [])
    (hmessages : h'.messages = first ++ (groups ++ last.toList).flatMap Group.messages ++ [g.head])
    (hpending : h'.pendingMedia = []) :
    Placed t first (groups ++ last.toList) (some g) (items ++ [item]) h' g.calls false where
  items := by simp [hp.items, hitems]
  messages := by simp [hmessages, Group.told, hout]
  pending := by simp [hpending, Group.media, hout]
  batch := rfl
  answered := by simp [hout]
  alone := by simp

theorem Placed.add_message (hout : isOutput t item = false) (hcall : isCall t item = false)
    (hmessage : isMessage t item = true) (hadd : h.addItem t item = .ok h')
    : ∃ groups' last', Placed t first groups' last' (items ++ [item]) h' [] false := by
  unfold ChatHistory.addItem at hadd
  rw [if_neg (by simp [hout])] at hadd
  dsimp only at hadd
  rw [itemToChat_message hcall hout] at hadd
  obtain rfl := Except.ok.inj hadd
  refine ⟨_, _, hp.new_group (Group.ofMessage item hmessage) rfl rfl ?_ ?_⟩
  · rw [← hp.flush.1]
    rfl
  · simpa using hp.flush.2

theorem Placed.add_call (hfirst : ∀ message ∈ first, message.role ≠ "assistant") (hcall : isCall t item = true)
    (hadd : h.addItem t item = .ok h') :
    ∃ groups' last', Placed t first groups' last' (items ++ [item]) h' (if answered then [item] else batch ++ [item])
      false := by
  have hadded : h'.messages = appendToolCallToLastAssistant h.flush.messages (toolCallOf t item) ∧
      h'.pendingMedia = [] := by
    unfold ChatHistory.addItem at hadd
    rw [if_neg (by simp [isOutput_of_isCall hcall])] at hadd
    dsimp only at hadd
    rw [itemToChat_call hcall] at hadd
    split at hadd
    · cases hadd
    · obtain rfl := Except.ok.inj hadd
      exact ⟨rfl, by simpa using hp.flush.2⟩
  obtain ⟨hmessages, hpending⟩ := hadded
  rw [hp.flush.1] at hmessages
  by_cases hhead : ∀ g ∈ last, g.outputs = [] → g.head.role ≠ "assistant"
  · rw [append_other _ _ (hp.last_message hfirst hhead)] at hmessages
    have hbatch : (if answered then [item] else batch ++ [item]) = [item] := by
      split
      · rfl
      rename_i hanswered
      rw [hp.batch]
      cases last with
      | none => rfl
      | some g =>
        have hout : g.outputs = [] := by
          by_contra hne
          exact hanswered (hp.answered.mpr ⟨g, rfl, hne⟩)
        simp [Group.calls_eq_nil (hhead g rfl hout)]
    rw [hbatch]
    exact ⟨_, _, hp.new_group (Group.ofCall item hcall) rfl rfl hmessages hpending⟩
  · simp only [not_forall, not_not] at hhead
    obtain ⟨g, rfl, hout, hrole⟩ := hhead
    have hanswered : answered = false := by
      by_contra hne
      obtain ⟨_, hg', hne'⟩ := hp.answered.mp (by simpa using hne)
      obtain rfl := Option.some.inj hg'
      exact hne' hout
    have hsplit : first ++ (groups ++ (some g).toList).flatMap Group.messages =
        first ++ groups.flatMap Group.messages ++ [g.head] := by
      simp [Group.messages_of_silent hout]
    rw [hsplit, append_assistant _ _ _ hrole] at hmessages
    refine ⟨groups, some (g.addCall item hcall hrole), ?_, ?_, ?_, ?_, ?_, by simp⟩
    · simp [hp.items, Group.items, Group.addCall, hout]
    · rw [hmessages, ← Group.head_addCall g item hcall hrole]
      simp [Group.told, Group.addCall, hout]
    · simp [hpending, Group.media, Group.addCall, hout]
    · simp [hanswered, hp.batch, Group.addCall]
    · simp [Group.addCall, hout]

end

end Loop

theorem placed_foldlM {t : ResponsesTarget ν} {first : List (ChatMessage ν)}
    (hfirst : ∀ message ∈ first, message.role ≠ "assistant") {rest : List (Item ν)}
    (hknown : ∀ item ∈ rest, known t item = true) {groups : List (Group t)} {last : Option (Group t)}
    {items batch : List (Item ν)} {h h' : ChatHistory ν} {answered : Bool}
    (hp : Placed t first groups last items h batch answered) (hbatched : Batched t batch answered rest)
    (hrun : rest.foldlM (ChatHistory.addItem t) h = .ok h') :
    ∃ groups' last' batch' answered', Placed t first groups' last' (items ++ rest) h' batch' answered' := by
  induction rest generalizing groups last items batch h answered with
  | nil =>
    obtain rfl := Except.ok.inj hrun
    exact ⟨groups, last, batch, answered, by simpa using hp⟩
  | cons item rest ih =>
    rw [List.forall_mem_cons] at hknown
    rw [List.foldlM_cons] at hrun
    cases hadd : h.addItem t item with
    | error =>
      rw [hadd] at hrun
      cases hrun
    | ok =>
      rw [hadd] at hrun
      rw [List.append_cons]
      unfold Batched at hbatched
      by_cases hout : isOutput t item = true
      · have hcall : isCall t item = false := by
          by_contra hne
          simp [isOutput_of_isCall (by simpa using hne)] at hout
        rw [if_pos hout] at hbatched
        obtain ⟨last', hp'⟩ := hp.add_output hout hcall hbatched.1 hadd
        exact ih hknown.2 hp' hbatched.2 hrun
      · rw [if_neg hout] at hbatched
        rw [Bool.not_eq_true] at hout
        by_cases hcall : isCall t item = true
        · rw [if_pos hcall] at hbatched
          obtain ⟨groups', last', hp'⟩ := hp.add_call hfirst hcall hadd
          exact ih hknown.2 hp' hbatched hrun
        rw [if_neg hcall] at hbatched
        rw [Bool.not_eq_true] at hcall
        obtain ⟨_, _, hp'⟩ := hp.add_message hout hcall (isMessage_of_known hknown.1 hout hcall) hadd
        exact ih hknown.2 hp' hbatched hrun

theorem foldlM_ok {t : ResponsesTarget ν} {items : List (Item ν)}
    (hnamed : ∀ item ∈ items, isCall t item = true → responsesCallName t item ≠ "") (h : ChatHistory ν) :
    ∃ h', items.foldlM (ChatHistory.addItem t) h = .ok h' := by
  induction items generalizing h with
  | nil => exact ⟨h, rfl⟩
  | cons item items ih =>
    rw [List.forall_mem_cons] at hnamed
    have hadd : ∃ next, h.addItem t item = .ok next := by
      unfold ChatHistory.addItem
      dsimp only
      by_cases hcall : isCall t item = true
      · rw [itemToChat_call hcall, if_neg (hnamed.1 hcall)]
        exact ⟨_, rfl⟩
      rw [Bool.not_eq_true] at hcall
      by_cases hout : isOutput t item = true
      · rw [itemToChat_output hcall hout]
        exact ⟨_, rfl⟩
      · rw [Bool.not_eq_true] at hout
        rw [itemToChat_message hcall hout]
        exact ⟨_, rfl⟩
    obtain ⟨next, hnext⟩ := hadd
    rw [List.foldlM_cons, hnext]
    exact ih hnamed.2 next

theorem instructionMessages_role (t : ResponsesTarget ν) (instructions : Json ν) :
    ∀ message ∈ instructionMessages t instructions, message.role = "system" := by
  intro message hmessage
  unfold instructionMessages at hmessage
  split at hmessage
  · simp at hmessage
  dsimp only at hmessage
  split at hmessage
  · simp at hmessage
  · simp [List.mem_singleton.mp hmessage]

theorem mapM_asItem (items : List (Item ν)) : (items.map Json.obj).mapM asItem = .ok items := by
  induction items with
  | nil => rfl
  | cons item items ih => simp [List.mapM_cons, ih, asItem]; rfl

def plainTarget : ResponsesTarget Nat := ⟨toString, fun _ => "", fun _ => "", fun _ => .error "no file"⟩

def messageItem (role text : String) : Item Nat := [("type", .str "message"), ("role", .str role), ("content", .str text)]

def callItem (callID : String) : Item Nat :=
  [("type", .str "function_call"), ("call_id", .str callID), ("name", .str "look"), ("arguments", .str "here")]

def outputItem (callID : String) (output : Json Nat) : Item Nat :=
  [("type", .str "function_call_output"), ("call_id", .str callID), ("output", output)]

/-- Two calls in one message, and a picture in the first output. -/
def lookChat : List (Item Nat) :=
  [messageItem "user" "Look.", messageItem "assistant" "I do.", callItem "a", callItem "b",
    outputItem "a" (.arr [.obj [("type", .str "input_image"), ("image_url", .str "u")]]), outputItem "b" (.str "dark"),
    messageItem "user" "Thanks."]

def isUser (message : ChatMessage ν) : Bool := message.role = "user"

def hasMedia (t : ResponsesTarget ν) (item : Item ν) : Bool := isOutput t item && !(outputMedia t item).isEmpty

theorem Group.users_le {t : ResponsesTarget ν} (g : Group t) :
    g.messages.countP isUser ≤ g.items.countP (isMessage t) + g.items.countP (hasMedia t) := by
  have htools : (g.outputs.map (outputMessage t)).countP isUser = 0 := by
    rw [List.countP_eq_zero]
    intro message hmessage
    obtain ⟨output, -, rfl⟩ := List.mem_map.mp hmessage
    simp [isUser, outputMessage]
  have hhead : [g.head].countP isUser ≤ g.items.countP (isMessage t) := by
    cases hitem : g.item with
    | none => simp [isUser, Group.head_role_of_none hitem]
    | some message =>
      have hmessage : isMessage t message = true := g.isMessage_item message hitem
      have hle : [g.head].countP isUser ≤ 1 := List.countP_le_length
      have hpos : 0 < g.items.countP (isMessage t) :=
        List.countP_pos_iff.mpr ⟨message, by simp [Group.items, hitem], hmessage⟩
      exact Nat.le_trans hle hpos
  have hmedia : (if g.media = [] then [] else [⟨"user", .arr g.media, [], ""⟩] : List (ChatMessage ν)).countP isUser ≤
      g.items.countP (hasMedia t) := by
    split
    · simp
    rename_i hne
    obtain ⟨_, hpart⟩ := List.exists_mem_of_ne_nil _ hne
    obtain ⟨output, houtput, hmem⟩ := List.mem_flatMap.mp hpart
    have hhas : hasMedia t output = true := by
      simp [hasMedia, g.isOutput_outputs output houtput, List.ne_nil_of_mem hmem]
    have hpos : 0 < g.items.countP (hasMedia t) :=
      List.countP_pos_iff.mpr ⟨output, List.mem_append_right _ houtput, hhas⟩
    simpa [isUser] using hpos
  have hsplit : g.messages.countP isUser = [g.head].countP isUser + (g.outputs.map (outputMessage t)).countP isUser +
      (if g.media = [] then [] else [⟨"user", .arr g.media, [], ""⟩] : List (ChatMessage ν)).countP isUser := by
    rw [← List.countP_append, ← List.countP_append]
    rfl
  omega

theorem Valid.users_le {t : ResponsesTarget ν} {items : List (Item ν)} {messages : List (ChatMessage ν)}
    (h : Valid t items messages) :
    messages.countP isUser ≤ (items.filter (known t)).countP (isMessage t) + (items.filter (known t)).countP (hasMedia t) := by
  obtain ⟨groups, hitems, rfl⟩ := h
  rw [hitems]
  clear hitems
  induction groups with
  | nil => simp
  | cons g =>
    have hg := g.users_le
    simp only [List.flatMap_cons, List.countP_append]
    omega

def reasonedChat : List (Item Nat) :=
  [messageItem "user" "Look.", callItem "a", [("type", .str "reasoning")], callItem "b", outputItem "a" (.str "bright"),
    outputItem "b" (.str "dark")]

end NewApi.Relay.ResponsesToChat

