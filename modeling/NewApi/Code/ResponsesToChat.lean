import NewApi.Code.RelayDto
import NewApi.Lib.GoText
import NewApi.Lib.Json

/-!
# Responses requests for Chat

The messages of `oai_responses/to_oai_chat_req.go`. A decoded object is a list of members.
-/

namespace NewApi.Code.Relay

abbrev Item (ν : Type) := List (String × Json ν)

/-- `FormatFloat`, `%v`, the encoder, and the loader of files with its refusals. -/
structure ResponsesTarget (ν : Type) where
  formatFloat : ν → String
  sprint : Json ν → String
  marshal : Json ν → String
  filePart : Item ν → Except String (Json ν)

structure ChatMessage (ν : Type) where
  role : String
  content : Json ν
  toolCalls : List ToolCall
  toolCallId : String

variable {ν : Type} (t : ResponsesTarget ν) (item : Item ν)

def interface2String : Json ν → String
  | .str s => s
  | .num n => t.formatFloat n
  | .bool true => "true"
  | .bool false => "false"
  | .null => ""
  | value => t.sprint value

def trimmed (key : String) : String :=
  GoText.trimSpace (interface2String t (Json.get item key))

/-! ## Content parts -/

def responsesImagePartToChatImageURL (part : Item ν) : Json ν :=
  match part.lookup "image_url" with
  | some (.str url) => .obj [("url", .str url)]
  | some imageURL => imageURL
  | none =>
    match ["url", "file_id", "detail"].filterMap fun key => (part.lookup key).map fun value => (key, value) with
    | [] => .obj part
    | imageURL => .obj imageURL

def responsesPartPayload (part : Item ν) (key : String) : Json ν :=
  match part.lookup key with
  | some value => value
  | none => .obj (part.filter fun member => member.1 ≠ "type")

def responsesVideoPartToChatVideoURL (part : Item ν) : Json ν :=
  match part.lookup "video_url" with
  | some (.obj videoURL) =>
    let url := interface2String t (Json.get videoURL "url")
    if url ≠ "" then .str url else .obj videoURL
  | some videoURL => videoURL
  | none =>
    let url := interface2String t (Json.get part "url")
    if url ≠ "" then .str url else responsesPartPayload part "video_url"

structure ChatParts (ν : Type) where
  chatParts : List (Json ν)
  textOnly : String
  onlyText : Bool
  droppedFile : Bool
  diagnostics : List ConversionDiagnostic

def ChatParts.media (s : ChatParts ν) (part : Json ν) : ChatParts ν :=
  { s with onlyText := false, chatParts := s.chatParts ++ [part] }

def isTextPart (partType : String) : Bool := ["input_text", "output_text", "text"].contains partType

def ChatParts.add (s : ChatParts ν) : Json ν → ChatParts ν
  | .obj part =>
    let partType := trimmed t part "type"
    if isTextPart partType then
      let text := interface2String t (Json.get part "text")
      { s with
        textOnly := s.textOnly ++ text
        chatParts := s.chatParts ++ [.obj [("type", .str "text"), ("text", .str text)]] }
    else if partType = "input_image" then
      s.media (.obj [("type", .str "image_url"), ("image_url", responsesImagePartToChatImageURL part)])
    else if partType = "input_file" then
      match t.filePart part with
      | .error reason =>
        { s with
          onlyText := false
          droppedFile := true
          diagnostics := s.diagnostics ++
            [⟨"unsupported_media_type", "input.content", reason ++ "; the file was omitted"⟩] }
      | .ok chatPart => s.media chatPart
    else if partType = "input_audio" then
      s.media (.obj [("type", .str "input_audio"), ("input_audio", responsesPartPayload part "input_audio")])
    else if partType = "input_video" then
      s.media (.obj [("type", .str "video_url"), ("video_url", responsesVideoPartToChatVideoURL t part)])
    else s.media (.obj part)
  | rawPart => s.media rawPart

def responsesContentPartsToChatContent (parts : List (Json ν)) : Json ν × List ConversionDiagnostic :=
  let s := parts.foldl (ChatParts.add t) ⟨[], "", true, false, []⟩
  (if s.onlyText then .str s.textOnly else if s.chatParts = [] ∧ s.droppedFile then .str "[file]" else .arr s.chatParts,
    s.diagnostics)

/-- The source has an error here that is never given. -/
def responsesInputContentToChatContent : Json ν → Json ν × List ConversionDiagnostic
  | .null => (.str "", [])
  | .arr parts => responsesContentPartsToChatContent t parts
  | content => (content, [])

/-! ## Tool calls and outputs -/

def namespacedToolName (toolNamespace name : String) : String :=
  if toolNamespace = "" ∨ toolNamespace = "functions" then name else toolNamespace ++ "__" ++ name

def responsesCallID : String :=
  let callID := trimmed t item "call_id"
  if callID ≠ "" then callID else trimmed t item "id"

def responsesCallName : String :=
  let name := trimmed t item "name"
  if name = "" then "" else namespacedToolName (trimmed t item "namespace") name

def responsesArgumentsString : Json ν → String
  | .null => ""
  | .str s => s
  | value => t.marshal value

def responsesFunctionCallItemToChatToolCall : Except String ToolCall :=
  let name := responsesCallName t item
  if name = "" then .error "function_call item is missing name"
  else .ok ⟨responsesCallID t item, name, responsesArgumentsString t (Json.get item "arguments")⟩

def responsesCustomToolCallItemToChatToolCall : Except String ToolCall :=
  let name := responsesCallName t item
  if name = "" then .error "custom_tool_call item is missing name"
  else
    let input := responsesArgumentsString t (Json.get item "input")
    .ok ⟨responsesCallID t item, name, t.marshal (.obj [("input", .str input)])⟩

def responseToolOutputToChatContent (value : Json ν) : Json ν :=
  .str (responsesArgumentsString t value)

structure OutputParts (ν : Type) where
  texts : List String
  mediaParts : List (Json ν)
  labels : List String

def isMediaPart (partType : String) : Bool :=
  ["input_image", "input_file", "input_audio", "input_video"].contains partType

/-- It is `none` where a part is no text and no media. -/
def OutputParts.add (s : OutputParts ν) : Json ν → Option (OutputParts ν)
  | .obj part =>
    let partType := trimmed t part "type"
    if isTextPart partType then
      let text := interface2String t (Json.get part "text")
      some (if text ≠ "" then { s with texts := s.texts ++ [text] } else s)
    else if isMediaPart partType then
      let label := "[" ++ String.ofList (partType.toList.drop "input_".length) ++ "]"
      some { s with
        mediaParts := s.mediaParts ++ [.obj part]
        labels := if s.labels.contains label then s.labels else s.labels ++ [label] }
    else none
  | _ => none

/-- The content of a tool message, and the media that it cannot carry. -/
def responsesToolOutputToChat (value : Json ν) : Json ν × List (Json ν) × List ConversionDiagnostic :=
  match value with
  | .arr (rawPart :: rawParts) =>
    match (rawPart :: rawParts).foldlM (OutputParts.add t) ⟨[], [], []⟩ with
    | none => (responseToolOutputToChatContent t value, [], [])
    | some s =>
      if s.mediaParts = [] then (.str ("\n".intercalate s.texts), [], [])
      else
        let (converted, diagnostics) := responsesContentPartsToChatContent t s.mediaParts
        let media :=
          match converted with
          | .arr media => media
          | _ => []
        (.str (if s.texts = [] then " ".intercalate s.labels else "\n".intercalate s.texts), media, diagnostics)
  | _ => (responseToolOutputToChatContent t value, [], [])

/-! ## Items -/

def isFunctionCall : Bool := trimmed t item "type" = "function_call"

def isCustomToolCall : Bool := trimmed t item "type" = "custom_tool_call"

def isOutput : Bool :=
  trimmed t item "type" = "function_call_output" ∨ trimmed t item "type" = "custom_tool_call_output"

def appendToolCallToLastAssistant (messages : List (ChatMessage ν)) (toolCall : ToolCall) : List (ChatMessage ν) :=
  match messages.getLast? with
  | some last =>
    if last.role = "assistant" then messages.dropLast ++ [{ last with toolCalls := last.toolCalls ++ [toolCall] }]
    else messages ++ [⟨"assistant", .null, [toolCall], ""⟩]
  | none => messages ++ [⟨"assistant", .null, [toolCall], ""⟩]

def responsesInputItemToChatMessages (messages : List (ChatMessage ν)) :
    Except String (List (ChatMessage ν) × List (Json ν) × List ConversionDiagnostic) :=
  if isFunctionCall t item then do
    let toolCall ← responsesFunctionCallItemToChatToolCall t item
    return (appendToolCallToLastAssistant messages toolCall, [], [])
  else if isCustomToolCall t item then do
    let toolCall ← responsesCustomToolCallItemToChatToolCall t item
    return (appendToolCallToLastAssistant messages toolCall, [], [])
  else if isOutput t item then
    let (content, media, diagnostics) := responsesToolOutputToChat t (Json.get item "output")
    .ok (messages ++ [⟨"tool", content, [], trimmed t item "call_id"⟩], media, diagnostics)
  else
    let role := trimmed t item "role"
    let (content, diagnostics) := responsesInputContentToChatContent t (Json.get item "content")
    .ok (messages ++ [⟨if role = "" then "user" else role, content, [], ""⟩], [], diagnostics)

structure ChatHistory (ν : Type) where
  messages : List (ChatMessage ν)
  pendingMedia : List (Json ν)
  diagnostics : List ConversionDiagnostic

def ChatHistory.flush (h : ChatHistory ν) : ChatHistory ν :=
  if h.pendingMedia = [] then h
  else { h with messages := h.messages ++ [⟨"user", .arr h.pendingMedia, [], ""⟩], pendingMedia := [] }

def ChatHistory.addItem (h : ChatHistory ν) (item : Item ν) : Except String (ChatHistory ν) := do
  let h := if isOutput t item then h else h.flush
  let (messages, media, diagnostics) ← responsesInputItemToChatMessages t item h.messages
  return ⟨messages, h.pendingMedia ++ media, h.diagnostics ++ diagnostics⟩

/-! ## Requests -/

structure OpenAIResponsesRequest (ν : Type) where
  instructions : Json ν
  input : Json ν

def responsesJSONString : Json ν → String
  | .str s => s
  | value => t.marshal value

def instructionMessages : Json ν → List (ChatMessage ν)
  | .null => []
  | value =>
    let instructions := responsesJSONString t value
    if GoText.trimSpace instructions = "" then [] else [⟨"system", .str instructions, [], ""⟩]

def asItem : Json ν → Except String (Item ν)
  | .obj members => .ok members
  | .null => .ok []
  | _ => .error "invalid input array"

def responsesRequestMessagesToChat (req : OpenAIResponsesRequest ν) :
    Except String (List (ChatMessage ν) × List ConversionDiagnostic) :=
  let messages := instructionMessages t req.instructions
  match req.input with
  | .null => .ok (messages, [])
  | .str input => .ok (messages ++ [⟨"user", .str input, [], ""⟩], [])
  | .arr values => do
    let items ← values.mapM asItem
    let h ← items.foldlM (ChatHistory.addItem t) ⟨messages, [], []⟩
    return (h.flush.messages, h.flush.diagnostics)
  | .bool _ => .error "unsupported responses input type \"boolean\""
  | .num _ => .error "unsupported responses input type \"number\""
  | .obj _ => .error "unsupported responses input type \"object\""

end NewApi.Code.Relay

