import NewApi.Code.RelayDto
import NewApi.Lib.GoText

/-!
# Gemini requests for Chat

The contents of `GeminiGenerateContentRequestToOpenAIChat` in `gemini_chat/to_oai_chat_req.go`. This part of the
conversion has no errors.
-/

namespace NewApi.Code.Relay

/-- JSON text, base64 of UTF-8, and Go's `%q`. -/
structure ChatTarget (J : Type) where
  toJSONString : J → String
  decodeText : String → Option String
  quote : String → String

variable {J : Type} (t : ChatTarget J)

/-! ## Media -/

def chatImageMediaTypes : List String := ["image/png", "image/jpeg", "image/webp", "image/gif"]

def normalizeMimeType (mimeType : String) : String :=
  let mimeType := (GoText.trimSpace mimeType).toLower
  if mimeType = "image/jpg" then "image/jpeg" else mimeType

def isTextMimeType (mimeType : String) : Bool :=
  let mediaType := GoText.trimSpace ((GoText.split ';' (GoText.trimSpace mimeType).toLower).headD "")
  mediaType.startsWith "text/" || mediaType = "application/json"

/-- An error is the reason why there is no such content in Chat. -/
def fileDataToChatContent (fileData : GeminiFileData) : Except String MediaContent :=
  let mimeType := normalizeMimeType fileData.mimeType
  if mimeType ≠ "" ∧ chatImageMediaTypes.contains mimeType = false then
    .error ("Chat Completions content cannot reference a Gemini file of MIME type " ++ t.quote fileData.mimeType)
  else .ok (.imageUrl fileData.fileUri "auto" mimeType)

def inlineDataToChatContent (inlineData : GeminiInlineData) : Except String MediaContent :=
  let mimeType := normalizeMimeType inlineData.mimeType
  if chatImageMediaTypes.contains mimeType then
    .ok (.imageUrl ("data:" ++ mimeType ++ ";base64," ++ inlineData.data) "auto" mimeType)
  else if mimeType.startsWith "image/" then
    .error ("Chat Completions content accepts only PNG, JPEG, WebP, and GIF images, not " ++ t.quote inlineData.mimeType)
  else if mimeType = "application/pdf" then
    .ok (.file "document.pdf" ("data:application/pdf;base64," ++ inlineData.data))
  else if isTextMimeType mimeType then
    match t.decodeText inlineData.data with
    | none =>
      .error ("Gemini inlineData of MIME type " ++ t.quote inlineData.mimeType ++ " could not be decoded as UTF-8 text")
    | some text => .ok (.text text)
  else if mimeType = "audio/wav" ∨ mimeType = "audio/x-wav" ∨ mimeType = "audio/wave" then
    .ok (.inputAudio inlineData.data "wav")
  else if mimeType = "audio/mp3" ∨ mimeType = "audio/mpeg" then .ok (.inputAudio inlineData.data "mp3")
  else .error ("Gemini inlineData of MIME type " ++ t.quote inlineData.mimeType ++ " has no Chat Completions content part")

/-- `geminiMediaToChatContent` with the name of the field. -/
def GeminiPart.media (part : GeminiPart J) : Option (String × Except String MediaContent) :=
  match part.inlineData with
  | some inlineData => some ("inlineData", inlineDataToChatContent t inlineData)
  | none => part.fileData.map fun fileData => ("fileData", fileDataToChatContent t fileData)

/-! ## The ids of function calls -/

structure GeminiFunctionCallHistory where
  reservedIDs : List String
  pending : List (String × String)
  nextID : Nat
deriving DecidableEq

def GeminiPart.reservedIDs (part : GeminiPart J) : List String :=
  ((part.functionCall.map FunctionCall.id).toList ++
    (part.functionResponse.map GeminiFunctionResponse.id).toList).filter fun id => id ≠ ""

def newGeminiFunctionCallHistory (contents : List (GeminiChatContent J)) : GeminiFunctionCallHistory :=
  ⟨contents.flatMap fun content => content.parts.flatMap GeminiPart.reservedIDs, [], 1⟩

def fallbackID (n : Nat) : String := "call_" ++ toString n

/-- One of the next `reservedIDs.length + 1` ids is free. -/
def nextFree (reservedIDs : List String) : Nat → Nat → Nat
  | 0, n => n
  | turns + 1, n => if fallbackID n ∈ reservedIDs then nextFree reservedIDs turns (n + 1) else n

def GeminiFunctionCallHistory.newFallbackID (h : GeminiFunctionCallHistory) : String × GeminiFunctionCallHistory :=
  let n := nextFree h.reservedIDs (h.reservedIDs.length + 1) h.nextID
  (fallbackID n, { h with reservedIDs := fallbackID n :: h.reservedIDs, nextID := n + 1 })

def GeminiFunctionCallHistory.add (h : GeminiFunctionCallHistory) (call : FunctionCall J) :
    String × GeminiFunctionCallHistory :=
  let (id, h) := if call.id = "" then h.newFallbackID else (call.id, h)
  (id, { h with pending := h.pending ++ [(id, call.functionName)] })

/-- `match`, which is no name here. -/
def GeminiFunctionCallHistory.matching (h : GeminiFunctionCallHistory) (response : GeminiFunctionResponse J) :
    String × GeminiFunctionCallHistory :=
  if response.id ≠ "" then (response.id, { h with pending := h.pending.eraseP fun call => call.1 = response.id })
  else
    match h.pending.find? fun call => response.name = "" || call.2 = response.name with
    | some call =>
      (call.1, { h with pending := h.pending.eraseP fun call => response.name = "" || call.2 = response.name })
    | none => h.newFallbackID

/-! ## Contents -/

def convertGeminiRoleToOpenAI (geminiRole : String) : String :=
  if geminiRole = "user" then "user"
  else if geminiRole = "model" then "assistant"
  else if geminiRole = "function" then "function"
  else "user"

structure Gathered where
  history : GeminiFunctionCallHistory
  mediaContents : List MediaContent
  toolCalls : List ToolCall
  reasoningTexts : List String
  toolMessages : List Message
  diagnostics : List ConversionDiagnostic
deriving DecidableEq

def mediaPath (contentIndex partIndex : Nat) (kind : String) : String :=
  "contents[" ++ toString contentIndex ++ "].parts[" ++ toString partIndex ++ "]." ++ kind

def omitted (path reason : String) : ConversionDiagnostic :=
  ⟨"unsupported_media_type", path, reason ++ "; the part was omitted"⟩

def Gathered.addPart (contentIndex : Nat) (g : Gathered) (entry : GeminiPart J × Nat) : Gathered :=
  let part := entry.1
  if part.text ≠ "" then
    if part.thought then { g with reasoningTexts := g.reasoningTexts ++ [part.text] }
    else { g with mediaContents := g.mediaContents ++ [.text part.text] }
  else
    match part.media t with
    | some (kind, .error reason) =>
      { g with diagnostics := g.diagnostics ++ [omitted (mediaPath contentIndex entry.2 kind) reason] }
    | some (_, .ok content) => { g with mediaContents := g.mediaContents ++ [content] }
    | none =>
      match part.functionCall with
      | some call =>
        let (id, history) := g.history.add call
        let toolCall := ⟨id, call.functionName, t.toJSONString call.arguments⟩
        { g with history, toolCalls := g.toolCalls ++ [toolCall] }
      | none =>
        match part.functionResponse with
        | some response =>
          let (toolCallId, history) := g.history.matching response
          let toolMessage := ⟨"tool", .text (t.toJSONString response.response), [], toolCallId, none, none⟩
          { g with history, toolMessages := g.toolMessages ++ [toolMessage] }
        | none => g

/-- A message with tool calls gets no content. -/
def Gathered.content (g : Gathered) : Content :=
  if g.toolCalls ≠ [] then .null
  else
    match g.mediaContents with
    | [] => .null
    | [.text text] => .text text
    | contents => .parts contents

def Gathered.message (g : Gathered) (role : String) : Message :=
  { role
    content := g.content
    toolCalls := g.toolCalls
    toolCallId := ""
    name := none
    reasoningContent := if g.reasoningTexts = [] then none else some ("\n".intercalate g.reasoningTexts) }

def Gathered.messages (g : Gathered) (role : String) : List Message :=
  let message := g.message role
  g.toolMessages ++
    if message.parseContent ≠ [] ∨ message.toolCalls ≠ [] ∨ message.reasoningContent ≠ none then [message] else []

def gather (contentIndex : Nat) (history : GeminiFunctionCallHistory) (content : GeminiChatContent J) : Gathered :=
  content.parts.zipIdx.foldl (Gathered.addPart t contentIndex) ⟨history, [], [], [], [], []⟩

def convertContents (t : ChatTarget J) :
    Nat → GeminiFunctionCallHistory → List (GeminiChatContent J) → List Message × List ConversionDiagnostic
  | _, _, [] => ([], [])
  | contentIndex, history, content :: contents =>
    let g := gather t contentIndex history content
    let rest := convertContents t (contentIndex + 1) g.history contents
    (g.messages (convertGeminiRoleToOpenAI content.role) ++ rest.1, g.diagnostics ++ rest.2)

def geminiContentsToChat (contents : List (GeminiChatContent J)) : List Message × List ConversionDiagnostic :=
  convertContents t 0 (newGeminiFunctionCallHistory contents) contents

end NewApi.Code.Relay

