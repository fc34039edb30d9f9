import NewApi.Code.ChatToGemini

/-!
# What Gemini gets of the texts

A data image is `![`, a text without `![` and `](`, then `](data:`, an address and `)`. The loop agrees with that where each
`![` starts one and nothing follows the last.
-/

namespace NewApi.Relay.ChatToGemini

open Search Code.Relay

/-! ## Data images -/

def imageAt : List Char → Option (List Char × List Char)
  | '!' :: '[' :: tail =>
    match cut "](".toList tail with
    | none => none
    | some (alt, target) =>
      if "![".toList <:+: alt ∨ ¬ "data:".toList <+: target then none else cut ")".toList target
  | _ => none

def firstImage : List Char → Option (List Char × List Char × List Char)
  | [] => none
  | c :: cs =>
    match imageAt (c :: cs) with
    | some (dataURL, rest) => some ([], dataURL, rest)
    | none => (firstImage cs).map fun r => (c :: r.1, r.2)

def cutImages : Nat → List Char → List Piece
  | 0, text => [.text text]
  | n + 1, text =>
    match firstImage text with
    | none => [.text text]
    | some (before, dataURL, rest) => .text before :: .image dataURL :: cutImages n rest

def expectedPieces (text : List Char) : List Piece :=
  (cutImages (text.length + 1) text).filter fun piece => piece ≠ .text []

/-! ## The texts that are kept -/

def imageText (before alt url : List Char) : List Char :=
  before ++ ("![".toList ++ alt ++ "](data:".toList ++ url ++ ")".toList)

/-- Texts without `![`, each followed by a data image. -/
inductive EndsInImages : List Char → Prop
  | nil : EndsInImages []
  | cons {before alt url rest : List Char} (hbefore : ¬ "![".toList <:+: before) (halt : ¬ "![".toList <:+: alt)
      (hlink : ¬ "](".toList <:+: alt) (hurl : ')' ∉ url) (h : EndsInImages rest) :
      EndsInImages (imageText before alt url ++ rest)

def NoImage (text : List Char) : Prop :=
  ∀ a b c d, text ≠ a ++ ("![".toList ++ b ++ "](data:".toList ++ c ++ ")".toList) ++ d

def Regular (text : List Char) : Prop := EndsInImages text ∨ NoImage text

/-! ## The scan -/

section Scan

variable {before alt url rest : List Char}

theorem imageText_append : imageText before alt url ++ rest =
      before ++ ('!' :: '[' :: (alt ++ (']' :: '(' :: ("data:".toList ++ (url ++ ')' :: rest))))) := by
  simp [imageText]

theorem not_infix_mark (hlink : ¬ "](".toList <:+: alt) : ¬ [']', '('] <:+: '!' :: '[' :: alt := by
  rw [List.infix_cons_iff, List.infix_cons_iff]
  rintro (h | h | h)
  · simp [List.cons_prefix_cons] at h
  · simp [List.cons_prefix_cons] at h
  · exact hlink h

theorem notMem_dataURL (hurl : ')' ∉ url) : ')' ∉ "data:".toList ++ url := by
  simp [hurl]

theorem cut_dataURL (hurl : ')' ∉ url) :
    cut ")".toList ("data:".toList ++ (url ++ ')' :: rest)) = some ("data:".toList ++ url, rest) := by
  rw [← List.append_assoc]
  exact cut_of_notMem (notMem_dataURL hurl)

theorem nextMarkdownImage_imageText (hbefore : ¬ "![".toList <:+: before) (hlink : ¬ "](".toList <:+: alt)
    (hurl : ')' ∉ url) :
    nextMarkdownImage (imageText before alt url ++ rest) = some (before, "data:".toList ++ url, rest) := by
  have hstart : cut "![".toList (imageText before alt url ++ rest) =
      some (before, alt ++ (']' :: '(' :: ("data:".toList ++ (url ++ ')' :: rest)))) := by
    rw [imageText_append]
    exact cut_of_not_infix (by decide) hbefore
  have hbracket : cut "](data:".toList
      ("![".toList ++ (alt ++ (']' :: '(' :: ("data:".toList ++ (url ++ ')' :: rest))))) =
      some ('!' :: '[' :: alt, url ++ ')' :: rest) :=
    cut_of_not_infix (by decide) (not_infix_mark hlink)
  unfold nextMarkdownImage
  rw [hstart]
  dsimp only
  rw [hbracket]
  dsimp only
  rw [cut_dataURL hurl]

theorem imageAt_imageText (halt : ¬ "![".toList <:+: alt) (hlink : ¬ "](".toList <:+: alt) (hurl : ')' ∉ url) :
    imageAt ('!' :: '[' :: (alt ++ (']' :: '(' :: ("data:".toList ++ (url ++ ')' :: rest))))) =
      some ("data:".toList ++ url, rest) := by
  have hcut : cut "](".toList (alt ++ (']' :: '(' :: ("data:".toList ++ (url ++ ')' :: rest)))) =
      some (alt, "data:".toList ++ (url ++ ')' :: rest)) := cut_of_not_infix (by decide) hlink
  simp only [imageAt, hcut]
  rw [if_neg, cut_dataURL hurl]
  rintro (h | h)
  · exact halt h
  · exact h (List.prefix_append _ _)

variable {s : List Char}

theorem imageAt_none_of_head {c : Char} (h : ¬ ['!', '['] <+: c :: s) : imageAt (c :: s) = none := by
  unfold imageAt
  split
  · rename_i tail heq
    exact absurd (heq ▸ ⟨tail, rfl⟩) h
  · rfl

theorem firstImage_append {image : List Char × List Char} (hs : firstImage s = some ([], image))
    (hbefore : ¬ "![".toList <:+: before) (hmark : s.head? ≠ some '[') :
    firstImage (before ++ s) = some (before, image) := by
  induction before with
  | nil => exact hs
  | cons c cs ih =>
    have hcs : ¬ "![".toList <:+: cs := fun h => hbefore (h.trans (List.suffix_cons c cs).isInfix)
    have hhead : ¬ ['!', '['] <+: c :: (cs ++ s) := by
      intro h
      cases cs with
      | nil =>
        cases s with
        | nil => simp [List.cons_prefix_cons] at h
        | cons =>
          simp only [List.nil_append, List.cons_prefix_cons] at h
          exact hmark (by simp [← h.2.1])
      | cons d cs =>
        simp only [List.cons_append, List.cons_prefix_cons] at h
        obtain ⟨rfl, rfl, -⟩ := h
        exact hbefore ⟨[], cs, rfl⟩
    rw [List.cons_append]
    unfold firstImage
    rw [imageAt_none_of_head hhead]
    rw [ih hcs]
    rfl

theorem firstImage_imageText (hbefore : ¬ "![".toList <:+: before) (halt : ¬ "![".toList <:+: alt)
    (hlink : ¬ "](".toList <:+: alt) (hurl : ')' ∉ url) :
    firstImage (imageText before alt url ++ rest) = some (before, "data:".toList ++ url, rest) := by
  rw [imageText_append]
  refine firstImage_append ?_ hbefore (by simp)
  unfold firstImage
  rw [imageAt_imageText halt hlink hurl]

theorem eq_of_dataURL {tail dataURL : List Char} (h : "data:".toList ++ tail = dataURL ++ ")".toList ++ rest) :
    ∃ c, tail = c ++ ")".toList ++ rest := by
  rw [List.append_assoc, List.append_eq_append_iff] at h
  rcases h with ⟨c, hc, htail⟩ | ⟨c, hdata, htail⟩
  · exact ⟨c, by rw [htail, List.append_assoc]⟩
  cases c with
  | nil => exact ⟨[], by simpa using htail.symm⟩
  | cons d =>
    obtain rfl : ')' = d := by simpa using congrArg List.head? htail
    have hmem : ')' ∈ "data:".toList := by rw [hdata]; simp
    exact absurd hmem (by decide)

theorem nextMarkdownImage_noImage {text : List Char} (h : NoImage text) : nextMarkdownImage text = none := by
  unfold nextMarkdownImage
  split
  · rfl
  rename_i a tail hstart
  split
  · rfl
  rename_i x tail' hbracket
  split
  · rfl
  rename_i dataURL d hclose
  -- the scan has found the three marks one after the other
  have htext := eq_of_cut hstart
  have htail := eq_of_cut hbracket
  obtain ⟨c, hc⟩ := eq_of_dataURL (eq_of_cut hclose)
  obtain ⟨b, hb⟩ : ∃ b, tail = b ++ "](data:".toList ++ tail' := by
    match x with
    | [] => simp at htail
    | [e] => simp at htail
    | e :: f :: b =>
      simp only [String.reduceToList, List.cons_append, List.nil_append, List.cons.injEq] at htail
      exact ⟨b, by simpa using htail.2.2⟩
  refine absurd ?_ (h a b c d)
  rw [htext, hb, hc]
  simp

theorem imageAt_noImage {a : List Char} (h : NoImage (a ++ s)) : imageAt s = none := by
  unfold imageAt
  split
  · split
    · rfl
    rename_i alt target hlink
    split
    · rfl
    rename_i hdata
    rw [not_or, not_not] at hdata
    obtain ⟨x, hx⟩ := hdata.2
    match hclose : cut ")".toList target with
    | none => rfl
    | some (dataURL, d) =>
      obtain ⟨c, hc⟩ := eq_of_dataURL (hx.trans (eq_of_cut hclose))
      refine absurd ?_ (h a alt c d)
      rw [eq_of_cut hlink, ← hx, hc]
      simp
  · rfl

theorem firstImage_noImage {a : List Char} (h : NoImage (a ++ s)) : firstImage s = none := by
  induction s generalizing a with
  | nil => rfl
  | cons c cs ih =>
    unfold firstImage
    rw [imageAt_noImage h]
    have hcs : NoImage (a ++ [c] ++ cs) := by simpa using h
    rw [ih hcs]
    rfl

end Scan

/-! ## Pieces -/

theorem markdownPieces_endsInImages {text : List Char} (h : EndsInImages text) {n : Nat} (hn : text.length < n) :
    markdownPieces n text = (cutImages n text).filter fun piece => piece ≠ .text [] := by
  induction h generalizing n with
  | nil => cases n <;> simp [markdownPieces, cutImages, nextMarkdownImage, firstImage, cut]
  | @cons before alt url rest hbefore halt hlink hurl _ ih =>
    obtain ⟨n, rfl⟩ : ∃ m, n = m + 1 := ⟨n - 1, by omega⟩
    have hrest : rest.length < n := by
      simp only [imageText, List.length_append] at hn
      have hmark : 0 < "![".toList.length := by decide
      omega
    unfold markdownPieces cutImages
    rw [nextMarkdownImage_imageText hbefore hlink hurl, firstImage_imageText hbefore halt hlink hurl]
    dsimp only
    rw [ih hrest]
    by_cases hempty : before = [] <;> simp [hempty]

theorem textPieces_regular {text : List Char} (h : Regular text) : textPieces text = expectedPieces text := by
  unfold textPieces expectedPieces
  rcases h with himages | hnone
  · rw [← markdownPieces_endsInImages himages (Nat.lt_succ_self _)]
    cases himages with
    | nil => simp [markdownPieces, nextMarkdownImage, cut]
    | cons hbefore halt hlink hurl =>
      rw [if_neg (by simp [imageText]), if_neg]
      unfold markdownPieces
      rw [nextMarkdownImage_imageText hbefore hlink hurl]
      simp
  · have hpieces : markdownPieces (text.length + 1) text = [] := by
      unfold markdownPieces
      rw [nextMarkdownImage_noImage hnone]
    have hcut : cutImages (text.length + 1) text = [.text text] := by
      unfold cutImages
      rw [firstImage_noImage (a := []) hnone]
    rw [hpieces, hcut]
    by_cases hempty : text = [] <;> simp [hempty]

/-! ## Messages -/

variable {J : Type}

def clear (part : GeminiPart J) : GeminiPart J := { part with thoughtSignature := "" }

def callPart (w : GeminiTarget J) (call : ToolCall) : Except String (GeminiPart J) :=
  (callArguments w call).map fun args => { GeminiPart.zero with functionCall := some ⟨call.id, call.name, args⟩ }

def expectedContent (w : GeminiTarget J) : MediaContent → Except String (List (GeminiPart J))
  | .text text => (expectedPieces text.toList).mapM (piecePart w false)
  | part => contentParts w false part

/-- Its tool calls, then its content with the images cut out. -/
def expectedParts (w : GeminiTarget J) (message : Message) : Except String (List (GeminiPart J)) := do
  let calls ← message.toolCalls.mapM (callPart w)
  let content ← message.parseContent.mapM (expectedContent w)
  .ok (calls ++ content.flatten)

variable {ε α β : Type} {f : α → Except ε β} {w : GeminiTarget J} {shouldAttach : Bool} {part : GeminiPart J}
  {parts : List (GeminiPart J)} {message : Message}

theorem ok_of_bind {x : Except ε α} {b : β} (h : x >>= f = .ok b) : ∃ a, x = .ok a ∧ f a = .ok b := by
  cases x with
  | error => cases h
  | ok a => exact ⟨a, rfl, h⟩

theorem mapM_map {γ : Type} {f' : α → Except ε γ} {g : β → γ} {l : List α}
    (hstep : ∀ x ∈ l, ∀ y, f x = .ok y → f' x = .ok (g y)) {ys : List β} (h : l.mapM f = .ok ys) :
    l.mapM f' = .ok (ys.map g) := by
  induction l generalizing ys with
  | nil =>
    obtain rfl : [] = ys := by simpa [List.mapM_nil, pure, Except.pure] using h
    rfl
  | cons x l ih =>
    rw [List.mapM_cons] at h ⊢
    obtain ⟨y, hy, h⟩ := ok_of_bind h
    obtain ⟨rest, hrest, h⟩ := ok_of_bind h
    obtain rfl : y :: rest = ys := by simpa [pure, Except.pure] using h
    rw [hstep x List.mem_cons_self y hy, ih (fun x hx => hstep x (List.mem_cons_of_mem _ hx)) hrest]
    rfl

theorem clear_attach (part : GeminiPart J) : clear (attachThoughtSignatureBypass part) = clear part := by
  unfold attachThoughtSignatureBypass clear
  split <;> rfl

theorem map_clear_attachFirst (parts : List (GeminiPart J)) :
    (attachFirstTextThoughtSignature parts).map clear = parts.map clear := by
  induction parts with
  | nil => rfl
  | cons part parts ih =>
    unfold attachFirstTextThoughtSignature
    split
    · rfl
    · rw [List.map_cons, ih, List.map_cons]

theorem piecePart_clear {piece : Piece}
    (h : piecePart w shouldAttach piece = .ok part) : piecePart w false piece = .ok (clear part) := by
  cases piece with
  | text =>
    obtain rfl := Except.ok.inj h
    rfl
  | image =>
    unfold piecePart at h ⊢
    dsimp only at h ⊢
    split at h
    · cases h
    obtain rfl := Except.ok.inj h
    cases shouldAttach with
    | false => rfl
    | true =>
      rw [if_pos rfl, clear_attach]
      rfl

theorem mediaPart_clear {source : FileSource} (h : mediaPart w source = .ok part) : clear part = part := by
  unfold mediaPart at h
  split at h
  · cases h
  split at h
  · obtain rfl := Except.ok.inj h
    rfl
  · cases h

theorem contentParts_clear {content : MediaContent} (hregular : ∀ text, content = .text text → Regular text.toList)
    (h : contentParts w shouldAttach content = .ok parts) : expectedContent w content = .ok (parts.map clear) := by
  have hmedia : (∀ text, content ≠ .text text) → expectedContent w content = .ok (parts.map clear) := by
    intro hne
    have hsame : contentParts w shouldAttach content = contentParts w false content ∧
        expectedContent w content = contentParts w false content := by
      cases content with
      | text text => exact absurd rfl (hne text)
      | _ => exact ⟨rfl, rfl⟩
    rw [hsame.2, ← hsame.1, h]
    have hparts : parts.map clear = parts := by
      unfold contentParts at h
      split at h
      · exact absurd rfl (hne _)
      split at h
      · obtain rfl := Except.ok.inj h
        rfl
      rename_i source _
      cases hpart : mediaPart w source with
      | error =>
        rw [hpart] at h
        cases h
      | ok =>
        rw [hpart] at h
        obtain rfl := Except.ok.inj h
        rw [List.map_singleton, mediaPart_clear hpart]
    rw [hparts]
  cases content with
  | text text =>
    have htext : contentParts w shouldAttach (.text text) = (textPieces text.toList).mapM (piecePart w shouldAttach) :=
      rfl
    rw [htext, textPieces_regular (hregular text rfl)] at h
    exact mapM_map (fun _ _ _ => piecePart_clear) h
  | imageUrl | inputAudio | file | videoUrl => exact hmedia fun _ => by simp

theorem toolCallParts_clear {calls : List ToolCall} {attached last : Bool}
    (h : toolCallParts w shouldAttach attached calls = .ok (parts, last)) :
    calls.mapM (callPart w) = .ok (parts.map clear) := by
  induction calls generalizing attached last parts with
  | nil =>
    simp only [toolCallParts, Except.ok.injEq, Prod.mk.injEq] at h
    rw [← h.1]
    rfl
  | cons call calls ih =>
    obtain ⟨_, hargs, h⟩ := ok_of_bind h
    obtain ⟨⟨_, _⟩, hrest, h⟩ := ok_of_bind h
    obtain ⟨rfl, -⟩ := h
    rw [List.mapM_cons, ih hrest, callPart, hargs, List.map_cons]
    split
    · rw [clear_attach]
      rfl
    · rfl

theorem messageParts_clear (hregular : ∀ text, .text text ∈ message.parseContent → Regular text.toList)
    (h : messageParts w message = .ok parts) : expectedParts w message = .ok (parts.map clear) := by
  obtain ⟨⟨callParts, _⟩, hcalls, h⟩ := ok_of_bind h
  obtain ⟨content, hcontent, h⟩ := ok_of_bind h
  have hcontent' : message.parseContent.mapM (expectedContent w) = .ok (content.map (List.map clear)) :=
    mapM_map (fun c hc _ => contentParts_clear fun text htext => hregular text (htext ▸ hc)) hcontent
  unfold expectedParts
  rw [toolCallParts_clear hcalls, hcontent']
  have hparts : parts.map clear = (callParts ++ content.flatten).map clear := by
    obtain rfl := Except.ok.inj h
    split
    · exact map_clear_attachFirst _
    · rfl
  rw [hparts, List.map_append, List.map_flatten]
  rfl

/-! ## Histories -/

def isTurn (message : Message) : Bool := !isSystem message && !isTool message

def turnRole (message : Message) : String := if message.role = "assistant" then "model" else message.role

def expectedTurn (w : GeminiTarget J) (message : Message) : Except String (String × List (GeminiPart J)) :=
  (expectedParts w message).map fun parts => (turnRole message, parts)

/-- Without the responses of tools, and without signatures. -/
def turns (contents : List (GeminiChatContent J)) : List (String × List (GeminiPart J)) :=
  (contents.map fun content =>
    (content.role, (content.parts.filter fun part => part.functionResponse.isNone).map clear)).filter fun turn =>
      !turn.2.isEmpty

theorem turns_append (contents more : List (GeminiChatContent J)) :
    turns (contents ++ more) = turns contents ++ turns more := by
  simp [turns]

theorem turns_addFunctionResponse (contents : List (GeminiChatContent J))
    (hpart : part.functionResponse.isSome = true) : turns (addFunctionResponse contents part) = turns contents := by
  have hnone : part.functionResponse.isNone = false := by simpa using hpart
  have hresponse : turns [⟨"user", [part]⟩] = [] := by simp [turns, hnone]
  unfold addFunctionResponse
  cases hlast : contents.getLast? with
  | none =>
    rw [List.getLast?_eq_none_iff] at hlast
    rw [hlast]
    exact hresponse
  | some last =>
    dsimp only
    split
    · rw [turns_append, hresponse, List.append_nil]
    have hcontents : contents = contents.dropLast ++ [last] := (List.dropLast_append_getLast? last hlast).symm
    conv_rhs => rw [hcontents]
    rw [turns_append, turns_append]
    simp [turns, hnone]

theorem functionResponse_piecePart {piece : Piece}
    (h : piecePart w false piece = .ok part) : part.functionResponse = none := by
  unfold piecePart at h
  split at h
  · obtain rfl := Except.ok.inj h
    rfl
  split at h
  · cases h
  · obtain rfl := Except.ok.inj h
    rfl

theorem forall_of_mapM {p : β → Prop} {l : List α}
    (hstep : ∀ x ∈ l, ∀ y, f x = .ok y → p y) {ys : List β} (h : l.mapM f = .ok ys) : ∀ y ∈ ys, p y := by
  induction l generalizing ys with
  | nil =>
    obtain rfl : [] = ys := by simpa [List.mapM_nil, pure, Except.pure] using h
    simp
  | cons x l ih =>
    rw [List.mapM_cons] at h
    obtain ⟨y, hy, h⟩ := ok_of_bind h
    obtain ⟨rest, hrest, h⟩ := ok_of_bind h
    obtain rfl : y :: rest = ys := by simpa [pure, Except.pure] using h
    rw [List.forall_mem_cons]
    exact ⟨hstep x List.mem_cons_self y hy, ih (fun x hx => hstep x (List.mem_cons_of_mem _ hx)) hrest⟩

theorem functionResponse_expectedContent {content : MediaContent}
    (h : expectedContent w content = .ok parts) : ∀ part ∈ parts, part.functionResponse = none := by
  unfold expectedContent at h
  split at h
  · exact forall_of_mapM (fun _ _ _ => functionResponse_piecePart) h
  unfold contentParts at h
  split at h
  · exact forall_of_mapM (fun _ _ _ => functionResponse_piecePart) h
  split at h
  · obtain rfl := Except.ok.inj h
    simp
  unfold mediaPart at h
  split at h
  · cases h
  split at h
  · obtain rfl := Except.ok.inj h
    simp [GeminiPart.zero]
  · cases h

theorem functionResponse_expectedParts
    (h : expectedParts w message = .ok parts) : ∀ part ∈ parts, part.functionResponse = none := by
  obtain ⟨_, hcalls, h⟩ := ok_of_bind h
  obtain ⟨_, hcontent, h⟩ := ok_of_bind h
  obtain rfl := Except.ok.inj h
  intro part hpart
  rcases List.mem_append.mp hpart with hcall | hrest
  · refine forall_of_mapM (p := fun part => part.functionResponse = none) (fun call _ part hpart => ?_) hcalls part hcall
    unfold callPart at hpart
    cases hargs : callArguments w call with
    | error =>
      rw [hargs] at hpart
      cases hpart
    | ok =>
      rw [hargs] at hpart
      obtain rfl := Except.ok.inj hpart
      rfl
  · obtain ⟨parts, hparts, hmem⟩ := List.mem_flatten.mp hrest
    exact forall_of_mapM (p := fun parts => ∀ part ∈ parts, part.functionResponse = none)
      (fun _ _ _ => functionResponse_expectedContent) hcontent parts hparts part hmem

theorem turns_message (role : String) (h : expectedParts w message = .ok (parts.map clear)) :
    turns (if parts = [] then [] else [⟨role, parts⟩]) = [(role, parts.map clear)].filter fun turn => !turn.2.isEmpty := by
  have hnone : parts.filter (fun part => part.functionResponse.isNone) = parts := by
    rw [List.filter_eq_self]
    intro part hpart
    have hclear := functionResponse_expectedParts h (clear part) (List.mem_map_of_mem hpart)
    rw [Option.isNone_iff_eq_none]
    exact hclear
  split
  · rename_i hempty
    simp [turns, hempty]
  · simp [turns, hnone]

theorem turns_foldlM {messages : List Message} {history history' : GeminiHistory J}
    (hregular : ∀ message ∈ messages, isTurn message = true →
      ∀ text, .text text ∈ message.parseContent → Regular text.toList)
    (h : messages.foldlM (convertMessage w) history = .ok history') :
    ∃ expected, (messages.filter isTurn).mapM (expectedTurn w) = .ok expected ∧
      turns history'.contents = turns history.contents ++ expected.filter fun turn => !turn.2.isEmpty := by
  induction messages generalizing history with
  | nil =>
    obtain rfl : history = history' := by simpa [pure, Except.pure] using h
    exact ⟨[], rfl, by simp⟩
  | cons message messages ih =>
    rw [List.foldlM_cons] at h
    obtain ⟨_, hnext, h⟩ := ok_of_bind h
    obtain ⟨expected, hexpected, hturns⟩ := ih (fun m hm => hregular m (List.mem_cons_of_mem _ hm)) h
    unfold convertMessage at hnext
    split at hnext
    · rename_i hsystem
      obtain rfl := Except.ok.inj hnext
      refine ⟨expected, ?_, hturns⟩
      rw [List.filter_cons_of_neg (by simp [isTurn, hsystem]), hexpected]
    split at hnext
    · rename_i htool
      obtain rfl := Except.ok.inj hnext
      refine ⟨expected, ?_, ?_⟩
      · rw [List.filter_cons_of_neg (by simp [isTurn, htool]), hexpected]
      · rw [hturns]
        rw [turns_addFunctionResponse _ rfl]
    rename_i hsystem htool
    have hturn : isTurn message = true := by simp [isTurn, hsystem, htool]
    obtain ⟨parts, hparts, hnext⟩ := ok_of_bind hnext
    obtain rfl := Except.ok.inj hnext
    have hmessage := messageParts_clear (hregular message List.mem_cons_self hturn) hparts
    refine ⟨(turnRole message, parts.map clear) :: expected, ?_, ?_⟩
    · rw [List.filter_cons_of_pos hturn, List.mapM_cons, hexpected, expectedTurn, hmessage]
      rfl
    rw [hturns]
    have hcontents : (if parts = [] then history.contents else history.contents ++ [⟨turnRole message, parts⟩]) =
        history.contents ++ (if parts = [] then [] else [⟨turnRole message, parts⟩]) := by
      split <;> simp
    rw [show (if message.role = "assistant" then "model" else message.role) = turnRole message from rfl, hcontents,
      turns_append, turns_message _ hmessage, List.append_assoc, ← List.filter_append]
    rfl

def plainTarget : GeminiTarget Unit where
  unmarshalObject := fun _ => some ()
  unmarshalArray := fun _ => none
  emptyObject := ()
  isEmptyObject := fun _ => true
  ofArray := id
  ofText := fun _ => ()
  decodeBase64FileData := fun dataURL => .ok ("image/png", dataURL)
  resolveBase64Data := fun source => .ok (source.data, "image/png")
  getIdentifier := FileSource.data
  functionCallThoughtSignatureEnabled := true

def chatMessage (role text : String) (toolCalls : List ToolCall) : Message :=
  ⟨role, .text text, toolCalls, "", none, none⟩

def imageChat : List Message :=
  [chatMessage "user" "see ![a](data:x) and ![b](data:y)" [], chatMessage "assistant" "[ok](http://z)" [⟨"1", "f", ""⟩]]

end NewApi.Relay.ChatToGemini
