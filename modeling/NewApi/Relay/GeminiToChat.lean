import Mathlib.Data.List.Nodup
import Mathlib.Data.Nat.Digits.Defs
import NewApi.Code.GeminiToChat

/-!
# What Chat gets of a Gemini content

A message of Chat has content or tool calls in this conversion, so a content with both beside each other loses one.
-/

namespace NewApi.Relay.GeminiToChat

open Code.Relay

variable {J : Type}

/-! ## What is expected -/

def entry (t : ChatTarget J) (part : GeminiPart J) : Option MediaContent :=
  if part.text ≠ "" then (if part.thought then none else some (.text part.text))
  else
    match part.media t with
    | some (_, .ok content) => some content
    | _ => none

def callText (t : ChatTarget J) (call : FunctionCall J) : String × String :=
  (call.functionName, t.toJSONString call.arguments)

def responseText (t : ChatTarget J) (response : GeminiFunctionResponse J) : Content :=
  .text (t.toJSONString response.response)

def thoughtText (part : GeminiPart J) : Option String := if part.text ≠ "" ∧ part.thought then some part.text else none

def isToolMessage (message : Message) : Bool := message.role = "tool"

/-- Texts and media in order, calls, responses and thoughts. -/
structure Shows (t : ChatTarget J) (contentIndex : Nat) (content : GeminiChatContent J) (block : List Message)
    (diagnostics : List ConversionDiagnostic) : Prop where
  entries : (block.filter fun message => !isToolMessage message).flatMap Message.parseContent =
    content.parts.filterMap (entry t)
  calls : (block.flatMap Message.toolCalls).map (fun call => (call.name, call.arguments)) =
    (content.parts.filterMap GeminiPart.functionCall).map (callText t)
  responses : (block.filter isToolMessage).map Message.content =
    (content.parts.filterMap GeminiPart.functionResponse).map (responseText t)
  thoughts : block.filterMap Message.reasoningContent =
    if content.parts.filterMap thoughtText = [] then []
    else ["\n".intercalate (content.parts.filterMap thoughtText)]
  reported : ∀ partIndex part kind reason, content.parts[partIndex]? = some part →
    part.media t = some (kind, .error reason) → omitted (mediaPath contentIndex partIndex kind) reason ∈ diagnostics

inductive Payload (J : Type) where
  | text (text : String)
  | thought (text : String)
  | media (kind : String) (content : Except String MediaContent)
  | call (call : FunctionCall J)
  | response (response : GeminiFunctionResponse J)
  | other (value : J)

def payloads (t : ChatTarget J) (part : GeminiPart J) : List (Payload J) :=
  (if part.text = "" then [] else [if part.thought then .thought part.text else .text part.text]) ++
    (part.inlineData.map fun data => Payload.media "inlineData" (inlineDataToChatContent t data)).toList ++
    (part.fileData.map fun data => Payload.media "fileData" (fileDataToChatContent t data)).toList ++
    (part.functionCall.map Payload.call).toList ++
    (part.functionResponse.map Payload.response).toList ++
    ((part.functionResponse.bind GeminiFunctionResponse.parts).map Payload.other).toList ++
    (part.executableCode.map Payload.other).toList ++ (part.codeExecutionResult.map Payload.other).toList

/-- Media may be reported instead. -/
def Shown (t : ChatTarget J) (path : String → String) (block : List Message) (diagnostics : List ConversionDiagnostic) :
    Payload J → Prop
  | .text text => ∃ message ∈ block, .text text ∈ message.parseContent
  | .thought text => ∃ texts, text ∈ texts ∧ ∃ message ∈ block, message.reasoningContent = some ("\n".intercalate texts)
  | .media _ (.ok content) => ∃ message ∈ block, content ∈ message.parseContent
  | .media kind (.error reason) => omitted (path kind) reason ∈ diagnostics
  | .call call => ∃ message ∈ block, ∃ toolCall ∈ message.toolCalls, (toolCall.name, toolCall.arguments) = callText t call
  | .response response => ∃ message ∈ block, message.role = "tool" ∧ message.content = responseText t response
  | .other _ => False

def OneKind (part : GeminiPart J) : Prop :=
  (part.text ≠ "" → part.inlineData = none ∧ part.fileData = none ∧ part.functionCall = none ∧
    part.functionResponse = none) ∧
  ((part.inlineData ≠ none ∨ part.fileData ≠ none) → part.functionCall = none ∧ part.functionResponse = none) ∧
  ¬ (part.inlineData ≠ none ∧ part.fileData ≠ none) ∧
  (part.functionCall ≠ none → part.functionResponse = none) ∧
  (∀ response ∈ part.functionResponse, response.parts = none) ∧
  part.executableCode = none ∧ part.codeExecutionResult = none

structure Plain (t : ChatTarget J) (content : GeminiChatContent J) : Prop where
  kinds : ∀ part ∈ content.parts, OneKind part
  alone : (∃ part ∈ content.parts, part.functionCall ≠ none) → content.parts.filterMap (entry t) = []

/-! ## The ids of function calls -/

theorem fallbackID_injective : Function.Injective fallbackID := by
  intro m n h
  have hdigits : Nat.toDigits 10 m = Nat.toDigits 10 n := by
    simpa [fallbackID, Nat.toString_eq_repr, Nat.repr_eq_ofList_toDigits, ← String.toList_inj] using h
  rw [← Nat.ofDigitChars_ten_toDigits (n := m), hdigits, Nat.ofDigitChars_ten_toDigits]

theorem taken_of_nextFree {reservedIDs : List String} {turns n : Nat}
    (h : fallbackID (nextFree reservedIDs turns n) ∈ reservedIDs) (k : Nat) (hk : k ≤ turns) :
    fallbackID (n + k) ∈ reservedIDs := by
  induction turns generalizing n k with
  | zero =>
    obtain rfl : k = 0 := by omega
    exact h
  | succ turns ih =>
    unfold nextFree at h
    split at h
    · rename_i htaken
      cases k with
      | zero => exact htaken
      | succ k =>
        rw [show n + (k + 1) = n + 1 + k by omega]
        exact ih h k (by omega)
    · contradiction

/-- Among one more id than are reserved there is a free one. -/
theorem nextFree_free (reservedIDs : List String) (n : Nat) :
    fallbackID (nextFree reservedIDs (reservedIDs.length + 1) n) ∉ reservedIDs := by
  intro h
  have hsub : (List.range (reservedIDs.length + 1)).map (fun k => fallbackID (n + k)) ⊆ reservedIDs := by
    intro id hid
    obtain ⟨k, hk, rfl⟩ := List.mem_map.mp hid
    exact taken_of_nextFree h k (by have := List.mem_range.mp hk; omega)
  have hnodup : ((List.range (reservedIDs.length + 1)).map fun k => fallbackID (n + k)).Nodup := by
    refine List.Nodup.map (fun a b hab => ?_) List.nodup_range
    have := fallbackID_injective hab
    omega
  have hle := hnodup.length_le_of_subset hsub
  simp at hle

/-- It is of no call and no response, and is never made up again. -/
theorem newFallbackID_new (h : GeminiFunctionCallHistory) :
    h.newFallbackID.1 ∉ h.reservedIDs ∧ h.newFallbackID.2.reservedIDs = h.newFallbackID.1 :: h.reservedIDs :=
  ⟨nextFree_free _ _, rfl⟩

/-! ## One content -/

structure Holds (t : ChatTarget J) (contentIndex : Nat) (g : Gathered) (parts : List (GeminiPart J)) : Prop where
  entries : g.mediaContents = parts.filterMap (entry t)
  calls : g.toolCalls.map (fun call => (call.name, call.arguments)) =
    (parts.filterMap GeminiPart.functionCall).map (callText t)
  responses : g.toolMessages.map Message.content = (parts.filterMap GeminiPart.functionResponse).map (responseText t)
  tools : ∀ message ∈ g.toolMessages, message.role = "tool" ∧ message.toolCalls = [] ∧ message.reasoningContent = none
  thoughts : g.reasoningTexts = parts.filterMap thoughtText
  reported : ∀ partIndex part kind reason, parts[partIndex]? = some part →
    part.media t = some (kind, .error reason) → omitted (mediaPath contentIndex partIndex kind) reason ∈ g.diagnostics

theorem media_ne_none {t : ChatTarget J} {part : GeminiPart J} {m : String × Except String MediaContent}
    (h : part.media t = some m) : part.inlineData ≠ none ∨ part.fileData ≠ none := by
  by_contra hnone
  rw [not_or, not_not, not_not] at hnone
  simp [GeminiPart.media, hnone.1, hnone.2] at h

theorem media_of_none {t : ChatTarget J} {part : GeminiPart J} (hinline : part.inlineData = none)
    (hfile : part.fileData = none) : part.media t = none := by
  simp [GeminiPart.media, hinline, hfile]

theorem reported_append {t : ChatTarget J} {contentIndex : Nat} {parts : List (GeminiPart J)} {part : GeminiPart J}
    {old new : List ConversionDiagnostic}
    (hold : ∀ partIndex part kind reason, parts[partIndex]? = some part → part.media t = some (kind, .error reason) →
      omitted (mediaPath contentIndex partIndex kind) reason ∈ old) (hsub : old ⊆ new)
    (hnew : ∀ kind reason, part.media t = some (kind, .error reason) →
      omitted (mediaPath contentIndex parts.length kind) reason ∈ new) :
    ∀ partIndex part' kind reason, (parts ++ [part])[partIndex]? = some part' →
      part'.media t = some (kind, .error reason) →
      omitted (mediaPath contentIndex partIndex kind) reason ∈ new := by
  intro partIndex part' kind reason hget hmedia
  rw [List.getElem?_append] at hget
  split at hget
  · exact hsub (hold partIndex part' kind reason hget hmedia)
  rw [List.getElem?_singleton] at hget
  split at hget
  · obtain rfl := Option.some.inj hget
    have hindex : partIndex = parts.length := by omega
    rw [hindex]
    exact hnew kind reason hmedia
  · cases hget

theorem Holds.addPart {t : ChatTarget J} {contentIndex : Nat} {g : Gathered} {parts : List (GeminiPart J)}
    {part : GeminiPart J} (h : Holds t contentIndex g parts) (hkind : OneKind part) :
    Holds t contentIndex (g.addPart t contentIndex (part, parts.length)) (parts ++ [part]) := by
  obtain ⟨htext, hmedia, -, hcall, -, -, -⟩ := hkind
  have hold := And.intro h.entries (And.intro h.calls (And.intro h.responses h.thoughts))
  unfold Gathered.addPart
  dsimp only
  by_cases hempty : part.text = ""
  · rw [if_neg (by simp [hempty])]
    have hthought : thoughtText part = none := by simp [thoughtText, hempty]
    split
    · rename_i kind reason hm
      obtain ⟨hnocall, hnoresponse⟩ := hmedia (media_ne_none hm)
      have hentry : entry t part = none := by simp [entry, hempty, hm]
      have hreported := reported_append h.reported (List.subset_append_left _ _)
        fun kind' reason' (hm' : part.media t = some (kind', .error reason')) => by
          obtain ⟨rfl, rfl⟩ : kind = kind' ∧ reason = reason' := by simpa [hm] using hm'
          exact List.mem_append_right g.diagnostics (List.mem_singleton.mpr rfl)
      refine ⟨?_, ?_, ?_, h.tools, ?_, hreported⟩ <;>
        simp [List.filterMap_append, hentry, hnocall, hnoresponse, hthought, hold]
    · rename_i kind content hm
      obtain ⟨hnocall, hnoresponse⟩ := hmedia (media_ne_none hm)
      have hentry : entry t part = some content := by simp [entry, hempty, hm]
      have hreported := reported_append h.reported (List.Subset.refl _)
        fun kind' reason' (hm' : part.media t = some (kind', .error reason')) => by simp [hm] at hm'
      refine ⟨?_, ?_, ?_, h.tools, ?_, hreported⟩ <;>
        simp [List.filterMap_append, hentry, hnocall, hnoresponse, hthought, hold]
    · rename_i hm
      have hentry : entry t part = none := by simp [entry, hempty, hm]
      have hreported := reported_append h.reported (List.Subset.refl _)
        fun kind' reason' (hm' : part.media t = some (kind', .error reason')) => by simp [hm] at hm'
      split
      · rename_i call hsome
        have hnoresponse := hcall (by simp [hsome])
        refine ⟨?_, ?_, ?_, h.tools, ?_, hreported⟩ <;>
          simp [List.filterMap_append, hentry, hsome, hnoresponse, hthought, hold, callText]
      · rename_i hnocall
        split
        · rename_i response hsome
          have htools : ∀ message ∈ g.toolMessages ++ [⟨"tool", .text (t.toJSONString response.response), [],
              (g.history.matching response).1, none, none⟩],
              message.role = "tool" ∧ message.toolCalls = [] ∧ message.reasoningContent = none := by
            intro message hmessage
            rcases List.mem_append.mp hmessage with hold | hnew
            · exact h.tools message hold
            · rw [List.mem_singleton.mp hnew]
              exact ⟨rfl, rfl, rfl⟩
          refine ⟨?_, ?_, ?_, htools, ?_, hreported⟩ <;>
            simp [List.filterMap_append, hentry, hnocall, hsome, hthought, hold, responseText]
        · rename_i hnoresponse
          refine ⟨?_, ?_, ?_, h.tools, ?_, hreported⟩ <;>
            simp [List.filterMap_append, hentry, hnocall, hnoresponse, hthought, hold]
  · obtain ⟨hinline, hfile, hnocall, hnoresponse⟩ := htext hempty
    have hreported := reported_append h.reported (List.Subset.refl _)
      fun kind reason (hm : part.media t = some (kind, .error reason)) => by
        simp [media_of_none hinline hfile] at hm
    rw [if_pos hempty]
    split
    all_goals
      rename_i hthought
      refine ⟨?_, ?_, ?_, h.tools, ?_, hreported⟩ <;>
        simp [List.filterMap_append, entry, thoughtText, hempty, hthought, hnocall, hnoresponse, hold]

theorem holds_foldl {t : ChatTarget J} {contentIndex : Nat} {parts rest : List (GeminiPart J)} {g : Gathered}
    (h : Holds t contentIndex g parts) (hkinds : ∀ part ∈ rest, OneKind part) :
    Holds t contentIndex ((rest.zipIdx parts.length).foldl (Gathered.addPart t contentIndex) g) (parts ++ rest) := by
  induction rest generalizing parts g with
  | nil => simpa using h
  | cons part rest ih =>
    rw [List.forall_mem_cons] at hkinds
    rw [List.zipIdx_cons, List.foldl_cons]
    have hnext := ih (h.addPart hkinds.1) hkinds.2
    rw [List.length_append, List.length_singleton, List.append_assoc, List.singleton_append] at hnext
    exact hnext

theorem holds_gather {t : ChatTarget J} {contentIndex : Nat} {history : GeminiFunctionCallHistory}
    {content : GeminiChatContent J} (hkinds : ∀ part ∈ content.parts, OneKind part) :
    Holds t contentIndex (gather t contentIndex history content) content.parts := by
  have hstart : Holds t contentIndex ⟨history, [], [], [], [], []⟩ [] :=
    ⟨rfl, rfl, rfl, by simp, rfl, by simp⟩
  exact holds_foldl hstart hkinds

theorem role_ne_tool (role : String) : convertGeminiRoleToOpenAI role ≠ "tool" := by
  unfold convertGeminiRoleToOpenAI
  split_ifs <;> decide

theorem parse_content {g : Gathered} (h : g.toolCalls = [] ∨ g.mediaContents = []) :
    g.content.parse = g.mediaContents := by
  unfold Gathered.content
  rcases h with hcalls | hmedia
  · rw [if_neg (by simp [hcalls])]
    split
    · rename_i hnil
      rw [hnil]
      rfl
    · rename_i text hone
      rw [hone]
      rfl
    · rfl
  · rw [hmedia]
    split <;> rfl

theorem shows_messages {t : ChatTarget J} {contentIndex : Nat} {content : GeminiChatContent J} {g : Gathered}
    (h : Holds t contentIndex g content.parts) (hplain : Plain t content) {role : String} (hrole : role ≠ "tool") :
    Shows t contentIndex content (g.messages role) g.diagnostics := by
  have hcontent : g.content.parse = g.mediaContents := by
    refine parse_content ?_
    by_cases hcalls : g.toolCalls = []
    · exact Or.inl hcalls
    refine Or.inr (h.entries.trans (hplain.alone ?_))
    have hne : content.parts.filterMap GeminiPart.functionCall ≠ [] := by
      intro hnil
      have hmap := h.calls
      rw [hnil, List.map_nil, List.map_eq_nil_iff] at hmap
      exact hcalls hmap
    obtain ⟨_, hcall⟩ := List.exists_mem_of_ne_nil _ hne
    obtain ⟨part, hpart, hsome⟩ := List.mem_filterMap.mp hcall
    exact ⟨part, hpart, by simp [hsome]⟩
  have htools : g.toolMessages.filter isToolMessage = g.toolMessages :=
    List.filter_eq_self.mpr fun message hm => by simp [isToolMessage, (h.tools message hm).1]
  have hothers : (g.toolMessages.filter fun message => !isToolMessage message) = [] :=
    List.filter_eq_nil_iff.mpr fun message hm => by simp [isToolMessage, (h.tools message hm).1]
  have hcalls : g.toolMessages.flatMap Message.toolCalls = [] :=
    List.flatMap_eq_nil_iff.mpr fun message hm => (h.tools message hm).2.1
  have hthoughts : g.toolMessages.filterMap Message.reasoningContent = [] :=
    List.filterMap_eq_nil_iff.mpr fun message hm => (h.tools message hm).2.2
  have hnottool : isToolMessage (g.message role) = false := by simp [isToolMessage, Gathered.message, hrole]
  have hparse : (g.message role).parseContent = g.mediaContents := hcontent
  unfold Gathered.messages
  dsimp only
  split
  · constructor
    · simp [hothers, hnottool, hparse, h.entries]
    · simp only [List.flatMap_append, hcalls, List.nil_append, List.flatMap_singleton]
      exact h.calls
    · simp [htools, hnottool, h.responses]
    · rw [List.filterMap_append, hthoughts, ← h.thoughts]
      by_cases hnil : g.reasoningTexts = [] <;> simp [Gathered.message, hnil]
    · exact h.reported
  · rename_i hempty
    simp only [not_or, not_not] at hempty
    obtain ⟨hnomedia, hnocalls, hnothoughts⟩ := hempty
    have hreasoning : g.reasoningTexts = [] := by
      by_contra hne
      simp [Gathered.message, hne] at hnothoughts
    constructor
    · rw [List.append_nil, hothers, ← h.entries, ← hparse, hnomedia]
      rfl
    · rw [List.append_nil, hcalls, ← h.calls, show g.toolCalls = [] from hnocalls]
    · rw [List.append_nil, htools, h.responses]
    · rw [List.append_nil, hthoughts, ← h.thoughts, if_pos hreasoning]
    · exact h.reported

/-! ## Nothing is lost -/

section Shown

variable {t : ChatTarget J} {contentIndex partIndex : Nat} {content : GeminiChatContent J} {block : List Message}
  {diagnostics : List ConversionDiagnostic} {part : GeminiPart J}

section

variable (h : Shows t contentIndex content block diagnostics)
include h

theorem Shows.entry_mem (hpart : part ∈ content.parts) {media : MediaContent} (hentry : entry t part = some media)
    : ∃ message ∈ block, media ∈ message.parseContent := by
  have hmem : media ∈ content.parts.filterMap (entry t) := List.mem_filterMap.mpr ⟨part, hpart, hentry⟩
  rw [← h.entries] at hmem
  obtain ⟨message, hmessage, hmedia⟩ := List.mem_flatMap.mp hmem
  exact ⟨message, (List.mem_filter.mp hmessage).1, hmedia⟩

theorem Shows.media_shown (hget : content.parts[partIndex]? = some part) (htext : part.text = "") {kind : String}
    {result : Except String MediaContent} (hmedia : part.media t = some (kind, result)) :
    Shown t (mediaPath contentIndex partIndex) block diagnostics (.media kind result : Payload J) := by
  cases result with
  | error reason => exact h.reported partIndex part kind reason hget hmedia
  | ok => exact h.entry_mem (List.mem_of_getElem? hget) (by simp [entry, htext, hmedia])

theorem Shows.thought_shown (hpart : part ∈ content.parts) (htext : part.text ≠ "") (hthought : part.thought = true)
    (path : String → String) : Shown t path block diagnostics (.thought part.text : Payload J) := by
  have hmem : part.text ∈ content.parts.filterMap thoughtText :=
    List.mem_filterMap.mpr ⟨part, hpart, by simp [thoughtText, htext, hthought]⟩
  have hthoughts := h.thoughts
  rw [if_neg (List.ne_nil_of_mem hmem)] at hthoughts
  have hjoined : "\n".intercalate (content.parts.filterMap thoughtText) ∈ block.filterMap Message.reasoningContent := by
    rw [hthoughts]
    exact List.mem_singleton.mpr rfl
  obtain ⟨message, hmessage, hreasoning⟩ := List.mem_filterMap.mp hjoined
  exact ⟨_, hmem, message, hmessage, hreasoning⟩

theorem Shows.call_shown (hpart : part ∈ content.parts) {call : FunctionCall J} (hcall : part.functionCall = some call)
    (path : String → String) : Shown t path block diagnostics (.call call) := by
  have hmem : callText t call ∈ (content.parts.filterMap GeminiPart.functionCall).map (callText t) :=
    List.mem_map_of_mem (List.mem_filterMap.mpr ⟨part, hpart, hcall⟩)
  rw [← h.calls] at hmem
  obtain ⟨toolCall, htool, heq⟩ := List.mem_map.mp hmem
  obtain ⟨message, hmessage, hcalls⟩ := List.mem_flatMap.mp htool
  exact ⟨message, hmessage, toolCall, hcalls, heq⟩

theorem Shows.response_shown (hpart : part ∈ content.parts) {response : GeminiFunctionResponse J}
    (hresponse : part.functionResponse = some response) (path : String → String) :
    Shown t path block diagnostics (.response response) := by
  have hmem : responseText t response ∈ (content.parts.filterMap GeminiPart.functionResponse).map (responseText t) :=
    List.mem_map_of_mem (List.mem_filterMap.mpr ⟨part, hpart, hresponse⟩)
  rw [← h.responses] at hmem
  obtain ⟨message, hmessage, heq⟩ := List.mem_map.mp hmem
  obtain ⟨hblock, htool⟩ := List.mem_filter.mp hmessage
  exact ⟨message, hblock, by simpa [isToolMessage] using htool, heq⟩

theorem Shows.complete (hkind : OneKind part) (hget : content.parts[partIndex]? = some part) (payload : Payload J)
    (hpayload : payload ∈ payloads t part) : Shown t (mediaPath contentIndex partIndex) block diagnostics payload := by
  have hpart := List.mem_of_getElem? hget
  obtain ⟨htext, -, hboth, -, hparts, hcode, hresult⟩ := hkind
  have hnoparts : part.functionResponse.bind GeminiFunctionResponse.parts = none := by
    rw [Option.bind_eq_none_iff]
    exact hparts
  simp only [payloads, hcode, hresult, hnoparts, List.mem_append, Option.mem_toList, Option.map_none,
    reduceCtorEq, or_false] at hpayload
  rcases hpayload with (((hp | hp) | hp) | hp) | hp
  · split at hp
    · simp at hp
    rename_i hne
    rw [List.mem_singleton] at hp
    subst hp
    split
    · exact h.thought_shown hpart hne ‹_› _
    · rename_i hthought
      exact h.entry_mem hpart (by simp [entry, hne, hthought])
  · obtain ⟨data, hdata, rfl⟩ := Option.map_eq_some_iff.mp hp
    refine h.media_shown hget ?_ (by simp [GeminiPart.media, hdata])
    by_contra hne
    simp [(htext hne).1] at hdata
  · obtain ⟨_, hdata, rfl⟩ := Option.map_eq_some_iff.mp hp
    have hinline : part.inlineData = none := by
      by_contra hne
      exact hboth ⟨hne, by simp [hdata]⟩
    refine h.media_shown hget ?_ (by simp [GeminiPart.media, hinline, hdata])
    by_contra hne
    simp [(htext hne).2.1] at hdata
  · obtain ⟨_, hcall, rfl⟩ := Option.map_eq_some_iff.mp hp
    exact h.call_shown hpart hcall _
  · obtain ⟨_, hresponse, rfl⟩ := Option.map_eq_some_iff.mp hp
    exact h.response_shown hpart hresponse _

end

end Shown

theorem Shows.mono {t : ChatTarget J} {contentIndex : Nat} {content : GeminiChatContent J} {block : List Message}
    {diagnostics more : List ConversionDiagnostic} (h : Shows t contentIndex content block diagnostics)
    (hsub : diagnostics ⊆ more) : Shows t contentIndex content block more :=
  ⟨h.entries, h.calls, h.responses, h.thoughts, fun partIndex part kind reason hget hmedia =>
    hsub (h.reported partIndex part kind reason hget hmedia)⟩

/-! ## Histories -/

theorem blocks_convertContents (t : ChatTarget J) (contents : List (GeminiChatContent J)) (start : Nat)
    (history : GeminiFunctionCallHistory) (hplain : ∀ content ∈ contents, Plain t content) :
    ∃ blocks : List (List Message), (convertContents t start history contents).1 = blocks.flatten ∧ blocks.length = contents.length ∧
      ∀ contentIndex content, contents[contentIndex]? = some content → ∃ block, blocks[contentIndex]? = some block ∧
        Shows t (start + contentIndex) content block (convertContents t start history contents).2 := by
  induction contents generalizing start history with
  | nil => exact ⟨[], rfl, rfl, by simp⟩
  | cons content contents ih =>
    rw [List.forall_mem_cons] at hplain
    obtain ⟨blocks, hmessages, hlength, hshows⟩ := ih (start + 1) (gather t start history content).history hplain.2
    refine ⟨(gather t start history content).messages (convertGeminiRoleToOpenAI content.role) :: blocks, ?_, ?_, ?_⟩
    · rw [List.flatten_cons, ← hmessages]
      rfl
    · rw [List.length_cons, List.length_cons, hlength]
    intro contentIndex content' hget
    cases contentIndex with
    | zero =>
      obtain rfl := Option.some.inj hget
      refine ⟨_, rfl, Shows.mono ?_ (List.subset_append_left _ _)⟩
      exact shows_messages (holds_gather hplain.1.kinds) hplain.1 (role_ne_tool _)
    | succ k =>
      obtain ⟨block, hblock, hshow⟩ := hshows k content' hget
      refine ⟨block, hblock, ?_⟩
      rw [show start + (k + 1) = start + 1 + k by omega]
      exact hshow.mono (List.subset_append_right _ _)

def textTarget : ChatTarget String := ⟨id, some, id⟩

/-- A picture that Chat does not have, a function call, and its response. -/
def weatherChat : List (GeminiChatContent String) :=
  [⟨"user", [{ GeminiPart.zero with text := "How is the weather?" },
    { GeminiPart.zero with inlineData := some ⟨"image/tiff", "x"⟩ }]⟩,
   ⟨"model", [{ GeminiPart.zero with functionCall := some ⟨"", "weather", "Bonn"⟩ }]⟩,
   ⟨"user", [{ GeminiPart.zero with functionResponse := some ⟨"", "weather", "sunny", none⟩ }]⟩]

def announcedCall : List (GeminiChatContent String) :=
  [⟨"model", [{ GeminiPart.zero with text := "Let me check." },
    { GeminiPart.zero with functionCall := some ⟨"", "weather", "Bonn"⟩ }]⟩]

end NewApi.Relay.GeminiToChat

