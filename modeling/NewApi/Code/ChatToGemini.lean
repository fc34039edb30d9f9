import NewApi.Code.RelayDto
import NewApi.Lib.GoText
import NewApi.Lib.Search

/-!
# Chat requests for Gemini

The messages of `OpenAIChatRequestToGeminiGenerateContent` in `oai_chat/to_gemini_chat_req.go`.
-/

namespace NewApi.Code.Relay

open Search

/-- What the conversion asks for: JSON, the media resolver and the options. -/
structure GeminiTarget (J : Type) where
  unmarshalObject : String → Option J
  unmarshalArray : String → Option J
  emptyObject : J
  isEmptyObject : J → Bool
  ofArray : J → J
  ofText : String → J
  decodeBase64FileData : String → Except String (String × String)
  resolveBase64Data : FileSource → Except String (String × String)
  getIdentifier : FileSource → String
  functionCallThoughtSignatureEnabled : Bool

variable {J : Type} (w : GeminiTarget J)

/-! ## Thought signatures -/

def thoughtSignatureBypass : String := "\"context_engineering_is_the_way_to_go\""

def attachThoughtSignatureBypass (part : GeminiPart J) : GeminiPart J :=
  if part.thoughtSignature = "" then { part with thoughtSignature := thoughtSignatureBypass } else part

def attachFirstTextThoughtSignature : List (GeminiPart J) → List (GeminiPart J)
  | [] => []
  | part :: parts =>
    if part.text ≠ "" ∧ part.thoughtSignature = "" then
      { part with thoughtSignature := thoughtSignatureBypass } :: parts
    else part :: attachFirstTextThoughtSignature parts

def hasFunctionCallContent (call : FunctionCall J) : Bool :=
  GoText.trimSpace call.functionName ≠ "" ∨ w.isEmptyObject call.arguments = false

/-! ## Markdown images in a text -/

inductive Piece where
  | text (text : List Char)
  | image (dataURL : List Char)
deriving DecidableEq

/-- The text before, the data URL and what is left. -/
def nextMarkdownImage (text : List Char) : Option (List Char × List Char × List Char) :=
  match cut "![".toList text with
  | none => none
  | some (textBefore, tail) =>
    match cut "](data:".toList ("![".toList ++ tail) with
    | none => none
    | some (_, tail) =>
      match cut ")".toList ("data:".toList ++ tail) with
      | none => none
      | some (dataURL, rest) => some (textBefore, dataURL, rest)

/-- Each turn takes something away, so the length of the text is enough. -/
def markdownPieces : Nat → List Char → List Piece
  | 0, _ => []
  | turns + 1, text =>
    match nextMarkdownImage text with
    | none => []
    | some (textBefore, dataURL, rest) =>
      (if textBefore ≠ [] then [.text textBefore] else []) ++ .image dataURL :: markdownPieces turns rest

def textPieces (text : List Char) : List Piece :=
  if text = [] then []
  else
    let pieces := markdownPieces (text.length + 1) text
    if pieces = [] then [.text text] else pieces

def piecePart (shouldAttach : Bool) : Piece → Except String (GeminiPart J)
  | .text text => .ok { GeminiPart.zero with text := String.ofList text }
  | .image dataURL =>
    match w.decodeBase64FileData (String.ofList dataURL) with
    | .error e => .error ("decode markdown base64 image data failed: " ++ e)
    | .ok (format, base64String) =>
      let part := { GeminiPart.zero with inlineData := some ⟨format, base64String⟩ }
      .ok (if shouldAttach then attachThoughtSignatureBypass part else part)

/-! ## Other content -/

def supportedMimeTypes : List String :=
  ["image/png", "image/jpeg", "image/jpg", "image/webp", "image/heic", "image/heif", "image/gif", "image/avif",
    "text/plain", "text/html", "text/css", "text/javascript", "text/x-typescript", "text/csv", "text/markdown",
    "text/x-python", "text/xml", "text/rtf", "application/x-javascript", "application/x-typescript",
    "application/x-python-code", "application/json", "application/x-ipynb+json", "application/rtf", "application/pdf"]

def isSupportedMimeType (mimeType : String) : Bool :=
  let mimeType := mimeType.toLower
  supportedMimeTypes.contains mimeType || mimeType.startsWith "audio/" || mimeType.startsWith "video/"

/-- Without the list of types at the end of the second message. -/
def mediaPart (source : FileSource) : Except String (GeminiPart J) :=
  match w.resolveBase64Data source with
  | .error e => .error ("get file data from '" ++ w.getIdentifier source ++ "' failed: " ++ e)
  | .ok (base64Data, mimeType) =>
    if isSupportedMimeType mimeType then
      .ok { GeminiPart.zero with inlineData := some ⟨mimeType, base64Data⟩ }
    else .error ("mime type is not supported by Gemini: '" ++ mimeType ++ "', url: '" ++ w.getIdentifier source ++ "'")

def contentParts (shouldAttach : Bool) : MediaContent → Except String (List (GeminiPart J))
  | .text text => (textPieces text.toList).mapM (piecePart w shouldAttach)
  | part =>
    match part.toFileSource with
    | none => .ok []
    | some source => (mediaPart w source).map fun part => [part]

/-! ## Tool calls and messages -/

def callArguments (call : ToolCall) : Except String J :=
  if call.arguments = "" then .ok w.emptyObject
  else
    match w.unmarshalObject call.arguments with
    | some args => .ok args
    | none => .error ("invalid arguments for function " ++ call.name ++ ", args: " ++ call.arguments)

/-- The first part with content gets the signature. -/
def toolCallParts (w : GeminiTarget J) (shouldAttach : Bool) :
    Bool → List ToolCall → Except String (List (GeminiPart J) × Bool)
  | signatureAttached, [] => .ok ([], signatureAttached)
  | signatureAttached, call :: calls => do
    let args ← callArguments w call
    let functionCall : FunctionCall J := ⟨call.id, call.name, args⟩
    let part := { GeminiPart.zero with functionCall := some functionCall }
    let attaches := shouldAttach && !signatureAttached && hasFunctionCallContent w functionCall
    let (parts, signatureAttached) ← toolCallParts w shouldAttach (signatureAttached || attaches) calls
    .ok ((if attaches then attachThoughtSignatureBypass part else part) :: parts, signatureAttached)

def messageParts (message : Message) : Except String (List (GeminiPart J)) := do
  let shouldAttach := (message.role = "assistant" || message.role = "model") && w.functionCallThoughtSignatureEnabled
  let (callParts, signatureAttached) ← toolCallParts w shouldAttach false message.toolCalls
  let content ← message.parseContent.mapM (contentParts w shouldAttach)
  let parts := callParts ++ content.flatten
  .ok (if shouldAttach && !signatureAttached then attachFirstTextThoughtSignature parts else parts)

structure GeminiHistory (J : Type) where
  contents : List (GeminiChatContent J)
  toolCallIDs : List (String × String)
  systemContent : List String

def functionResponseContent (contentStr : String) : J :=
  match w.unmarshalObject contentStr with
  | some value => value
  | none =>
    match w.unmarshalArray contentStr with
    | some value => w.ofArray value
    | none => w.ofText contentStr

/-- A tool message joins the last content, unless that is the model's. -/
def addFunctionResponse (contents : List (GeminiChatContent J)) (part : GeminiPart J) : List (GeminiChatContent J) :=
  match contents.getLast? with
  | none => [⟨"user", [part]⟩]
  | some last =>
    if last.role = "model" then contents ++ [⟨"user", [part]⟩]
    else contents.dropLast ++ [{ last with parts := last.parts ++ [part] }]

def isSystem (message : Message) : Bool := message.role = "system" || message.role = "developer"

def isTool (message : Message) : Bool := message.role = "tool" || message.role = "function"

def convertMessage (history : GeminiHistory J) (message : Message) : Except String (GeminiHistory J) :=
  if isSystem message then .ok { history with systemContent := history.systemContent ++ [message.stringContent] }
  else if isTool message then
    let name := message.name.getD ((history.toolCallIDs.lookup message.toolCallId).getD "")
    let response : GeminiFunctionResponse J :=
      ⟨message.toolCallId, name, functionResponseContent w message.stringContent, none⟩
    .ok { history with
      contents := addFunctionResponse history.contents { GeminiPart.zero with functionResponse := some response } }
  else do
    let parts ← messageParts w message
    let role := if message.role = "assistant" then "model" else message.role
    .ok { history with
      contents := if parts = [] then history.contents else history.contents ++ [⟨role, parts⟩]
      toolCallIDs := (message.toolCalls.map fun call => (call.id, call.name)).reverse ++ history.toolCallIDs }

def convertMessages (messages : List Message) : Except String (GeminiHistory J) :=
  messages.foldlM (convertMessage w) ⟨[], [], []⟩

end NewApi.Code.Relay

