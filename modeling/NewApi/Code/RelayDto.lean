import Mathlib.Logic.Basic

/-!
# Requests of the relay

What the converters read and write of `dto/openai_request.go` and `dto/gemini.go`. A JSON value that is passed through is
of any type `J`.
-/

namespace NewApi.Code.Relay

structure ConversionDiagnostic where
  code : String
  path : String
  message : String
deriving DecidableEq

/-! ## Chat messages -/

structure FileSource where
  data : String
  mimeType : String
deriving DecidableEq

/-- What the parser does not know has been left out by it. -/
inductive MediaContent where
  | text (text : String)
  | imageUrl (url detail mimeType : String)
  | inputAudio (data format : String)
  | file (fileName fileData : String)
  | videoUrl (url : String)
deriving DecidableEq

def MediaContent.toFileSource : MediaContent → Option FileSource
  | .text _ => none
  | .imageUrl url _ mimeType => if url = "" then none else some ⟨url, mimeType⟩
  | .inputAudio data format =>
    if data = "" then none else some ⟨data, if format ≠ "" then "audio/" ++ format else ""⟩
  | .file _ fileData => if fileData = "" then none else some ⟨fileData, ""⟩
  | .videoUrl url => if url = "" then none else some ⟨url, ""⟩

inductive Content where
  | null
  | text (text : String)
  | parts (parts : List MediaContent)
deriving DecidableEq

structure ToolCall where
  id : String
  name : String
  arguments : String
deriving DecidableEq

structure Message where
  role : String
  content : Content
  toolCalls : List ToolCall
  toolCallId : String
  name : Option String
  reasoningContent : Option String
deriving DecidableEq

def Content.parse : Content → List MediaContent
  | .null => []
  | .text value => [.text value]
  | .parts values => values

def Message.parseContent (message : Message) : List MediaContent := message.content.parse

def MediaContent.textOf : MediaContent → String
  | .text value => value
  | _ => ""

/-- The texts of a content that has come as JSON, one after the other. -/
def Message.stringContent (message : Message) : String :=
  match message.content with
  | .null => ""
  | .text text => text
  | .parts parts => String.join (parts.map MediaContent.textOf)

/-! ## Gemini contents -/

structure GeminiInlineData where
  mimeType : String
  data : String
deriving DecidableEq

structure GeminiFileData where
  mimeType : String
  fileUri : String
deriving DecidableEq

structure FunctionCall (J : Type) where
  id : String
  functionName : String
  arguments : J
deriving DecidableEq

structure GeminiFunctionResponse (J : Type) where
  id : String
  name : String
  response : J
  parts : Option J
deriving DecidableEq

structure GeminiPart (J : Type) where
  text : String
  thought : Bool
  inlineData : Option GeminiInlineData
  fileData : Option GeminiFileData
  functionCall : Option (FunctionCall J)
  functionResponse : Option (GeminiFunctionResponse J)
  executableCode : Option J
  codeExecutionResult : Option J
  thoughtSignature : String
deriving DecidableEq

def GeminiPart.zero {J : Type} : GeminiPart J := ⟨"", false, none, none, none, none, none, none, ""⟩

structure GeminiChatContent (J : Type) where
  role : String
  parts : List (GeminiPart J)
deriving DecidableEq

end NewApi.Code.Relay
