import FlowPilot.Json
import FlowPilot.Lib.Strip

/-!
# What a provider's response says

`extract_anthropic_content` takes the text of an Anthropic response from its
content blocks. It skips every block that is only white space before it
joins the others, so white space that stands in a block of its own between
two texts is lost; `extractAnthropicContent_eq` says what is returned, and
when that is the text of all blocks.
-/

namespace FlowPilot.AiOrchestrator

/-! ## Python strings -/

/-- `str.isspace`, of one character. -/
def isSpace (c : Char) : Bool :=
  c.toNat ∈ [9, 10, 11, 12, 13, 28, 29, 30, 31, 32, 133, 160, 5760, 8232, 8233, 8239, 8287, 12288]
  || (8192 ≤ c.toNat && c.toNat ≤ 8202)

/-- `text.strip()`. -/
def strip (text : String) : String := String.ofList (Strip.strip isSpace text.toList)

theorem strip_eq_empty {text : String} : strip text = "" ↔ Strip.Blank isSpace text.toList := by
  rw [strip, ← Strip.strip_eq_nil, ← String.ofList_nil, String.ofList_inj]

/-- The texts that are not only white space. -/
def nonBlank (texts : List String) : List String := texts.filter (strip · ≠ "")

/-! ## Content blocks -/

structure ValueError where
  message : String
deriving DecidableEq

/-- The body of the loop over the content blocks. -/
def appendTextPart (textParts : List String) : Json → List String
  | .obj block =>
      match block.lookup "text" with
      | some (.str text) =>
          if block.lookup "type" = some (.str "text") ∧ strip text ≠ "" then textParts ++ [text]
          else textParts
      | _ => textParts
  | _ => textParts

/-- `extract_anthropic_content`. -/
def extractAnthropicContent (responseBody : Record) : Except ValueError String :=
  match responseBody.lookup "content" with
  | some (.arr (block :: blocks)) =>
      let content := strip (String.join ((block :: blocks).foldl appendTextPart []))
      if content = "" then .error ⟨"Anthropic response content is empty"⟩ else .ok content
  | _ => .error ⟨"Anthropic response has no content blocks"⟩

/-! ## The texts of a response -/

/-- The text of a block of type text. -/
def blockText : Json → Option String
  | .obj block =>
      match block.lookup "type", block.lookup "text" with
      | some (.str type), some (.str text) => if type = "text" then some text else none
      | _, _ => none
  | _ => none

/-- The texts of all blocks of type text, in order. -/
def contentTexts (responseBody : Record) : List String :=
  match responseBody.lookup "content" with
  | some (.arr blocks) => blocks.filterMap blockText
  | _ => []

theorem appendTextPart_eq (textParts : List String) (block : Json) :
    appendTextPart textParts block = textParts ++ nonBlank (blockText block).toList := by
  cases block with
  | obj block =>
      simp only [appendTextPart, blockText]
      split
      · rename_i text htext
        split
        · rename_i h
          simp [h.1, h.2, htext, nonBlank]
        · rename_i h
          split
          · rename_i type text' htype htext'
            obtain rfl : text = text' := by simpa [htext] using htext'
            split
            · rename_i htypeText
              have hblank : strip text = "" := by simpa [htype, htypeText] using h
              simp [nonBlank, hblank]
            · simp [nonBlank]
          · simp [nonBlank]
      · rename_i hother
        split
        · rename_i htext
          exact absurd htext (hother _)
        · simp [nonBlank]
  | _ => simp [appendTextPart, blockText, nonBlank]

/-- The loop collects the texts that are not only white space. -/
theorem foldl_appendTextPart (blocks : List Json) (textParts : List String) :
    blocks.foldl appendTextPart textParts = textParts ++ nonBlank (blocks.filterMap blockText) := by
  induction blocks generalizing textParts with
  | nil => simp [nonBlank]
  | cons block blocks ih =>
      rw [List.foldl_cons, ih, appendTextPart_eq, List.append_assoc]
      cases hblock : blockText block with
      | none => simp [nonBlank, hblock]
      | some text => by_cases hblank : strip text = "" <;> simp [nonBlank, hblock, hblank]

/-! ## Leaving out white space -/

theorem strip_join (texts : List String) : strip (String.join texts)
    = String.ofList (Strip.strip isSpace (texts.map String.toList).flatten) := by
  rw [strip, String.toList_join, List.flatMap_def]

theorem nonBlank_toList (texts : List String) :
    (nonBlank texts).map String.toList = Strip.kept isSpace (texts.map String.toList) := by
  rw [nonBlank, Strip.kept, List.filter_map]
  refine congrArg (List.map String.toList) (List.filter_congr fun text _ => ?_)
  simp [Strip.blank, strip_eq_empty]

/-- A text is lost iff it is white space between texts that are not. -/
theorem strip_join_nonBlank (texts : List String) :
    strip (String.join (nonBlank texts)) = strip (String.join texts)
      ↔ ∀ text ∈ Strip.strip (strip · = "") texts, strip text = "" → text = "" := by
  have hmap : Strip.strip (Strip.blank isSpace) (texts.map String.toList)
      = (Strip.strip (strip · = "") texts).map String.toList := by
    rw [Strip.strip_map]
    congr 2
    funext text
    simp [Strip.blank, strip_eq_empty]
  rw [strip_join, strip_join, String.ofList_inj, nonBlank_toList, Strip.strip_kept, hmap,
    List.forall_mem_map]
  simp only [← strip_eq_empty, String.toList_eq_nil_iff]

theorem strip_join_nonBlank_eq_empty {texts : List String} :
    strip (String.join (nonBlank texts)) = "" ↔ strip (String.join texts) = "" := by
  rw [strip_eq_empty, strip_eq_empty, String.toList_join, String.toList_join, List.flatMap_def,
    List.flatMap_def, nonBlank_toList, Strip.blank_kept]

/-! ## The content -/

/-- The content is a list that is not empty. -/
def HasBlocks (responseBody : Record) : Prop :=
  ∃ blocks, responseBody.lookup "content" = some (.arr blocks) ∧ blocks ≠ []

/-- `extract_anthropic_content` by the texts of the blocks. -/
theorem extractAnthropicContent_cases (responseBody : Record) :
    (¬ HasBlocks responseBody ∧ contentTexts responseBody = []
        ∧ ∃ e, extractAnthropicContent responseBody = .error e)
    ∨ HasBlocks responseBody ∧ extractAnthropicContent responseBody =
        if strip (String.join (nonBlank (contentTexts responseBody))) = "" then
          .error ⟨"Anthropic response content is empty"⟩
        else .ok (strip (String.join (nonBlank (contentTexts responseBody)))) := by
  unfold extractAnthropicContent
  split
  · rename_i block blocks hcontent
    refine Or.inr ⟨⟨_, hcontent, List.cons_ne_nil _ _⟩, ?_⟩
    simp only [foldl_appendTextPart, List.nil_append, contentTexts, hcontent]
  · rename_i hother
    refine Or.inl ⟨?_, ?_, _, rfl⟩
    · rintro ⟨blocks, hcontent, hne⟩
      obtain ⟨block, rest, rfl⟩ := List.exists_cons_of_ne_nil hne
      exact hother block rest hcontent
    · unfold contentTexts
      split
      · rename_i blocks hcontent
        cases blocks with
        | nil => rfl
        | cons block rest => exact absurd hcontent (hother block rest)
      · rfl

/-- What is extracted, if anything, depends on the texts alone. -/
theorem extractAnthropicContent_toOption (responseBody : Record) :
    (extractAnthropicContent responseBody).toOption =
      if strip (String.join (nonBlank (contentTexts responseBody))) = "" then none
      else some (strip (String.join (nonBlank (contentTexts responseBody)))) := by
  rcases extractAnthropicContent_cases responseBody with ⟨-, htexts, e, he⟩ | ⟨-, heq⟩
  · rw [he, htexts]
    rfl
  · rw [heq]
    split <;> rfl

/-- **The text of a response.** What is extracted is the concatenation of the
texts that are not only white space, stripped. It is that of all texts iff
every text that is only white space, and has others before and after it, is
empty. A `ValueError` is raised iff the content is no list with a block in
it, or all texts together are white space. Other blocks do not matter. -/
theorem extractAnthropicContent_eq (responseBody : Record) :
    (∀ content, extractAnthropicContent responseBody = .ok content →
      content = strip (String.join (nonBlank (contentTexts responseBody)))
      ∧ (content = strip (String.join (contentTexts responseBody))
        ↔ ∀ text ∈ Strip.strip (strip · = "") (contentTexts responseBody),
          strip text = "" → text = ""))
    ∧ ((∃ e, extractAnthropicContent responseBody = .error e)
      ↔ ¬ HasBlocks responseBody ∨ strip (String.join (contentTexts responseBody)) = "")
    ∧ ∀ before block after rest, blockText block = none →
      responseBody.lookup "content" = some (.arr (before ++ block :: after)) →
      rest.lookup "content" = some (.arr (before ++ after)) →
      (extractAnthropicContent responseBody).toOption
        = (extractAnthropicContent rest).toOption := by
  refine ⟨fun content hok => ?_, ?_, fun before block after rest hblock hcontent hrest => ?_⟩
  · have hcontent := extractAnthropicContent_toOption responseBody
    rw [hok, Except.toOption] at hcontent
    split at hcontent
    · cases hcontent
    · obtain rfl := Option.some.inj hcontent
      exact ⟨rfl, strip_join_nonBlank _⟩
  · rw [← strip_join_nonBlank_eq_empty]
    rcases extractAnthropicContent_cases responseBody with ⟨hnone, -, he⟩ | ⟨hblocks, heq⟩
    · exact iff_of_true he (Or.inl hnone)
    · rw [heq]
      split
      · rename_i hempty
        exact iff_of_true ⟨_, rfl⟩ (Or.inr hempty)
      · rename_i hfull
        exact iff_of_false nofun (not_or.mpr ⟨not_not.mpr hblocks, hfull⟩)
  · have htexts : contentTexts responseBody = contentTexts rest := by
      simp only [contentTexts, hcontent, hrest, List.filterMap_append, List.filterMap_cons, hblock]
    rw [extractAnthropicContent_toOption, extractAnthropicContent_toOption, htexts]

/-- A block of type text. -/
def textBlock (text : String) : Json := .obj [("type", .str "text"), ("text", .str text)]

/-- A response with these blocks. -/
def contentResponse (blocks : List Json) : Record := [("content", .arr blocks)]

/-- The theorem for two texts with the use of a tool between them. -/
theorem extractAnthropicContent_eq_joined :
    let toolUse : Json := .obj [("type", .str "tool_use"), ("name", .str "ignored")]
    let withTool := contentResponse [textBlock "Lead ", toolUse, textBlock "summary"]
    let without := contentResponse [textBlock "Lead ", textBlock "summary"]
    extractAnthropicContent withTool = .ok "Lead summary"
    ∧ "Lead summary" = strip (String.join (nonBlank (contentTexts withTool)))
    ∧ (extractAnthropicContent withTool).toOption = (extractAnthropicContent without).toOption := by
  intro toolUse withTool without
  have hok : extractAnthropicContent withTool = .ok "Lead summary" := by decide
  obtain ⟨hcontent, -, hothers⟩ := extractAnthropicContent_eq withTool
  exact ⟨hok, (hcontent _ hok).1, hothers [textBlock "Lead "] toolUse [textBlock "summary"] without
    (by decide) (by decide) (by decide)⟩

/-- A block that is only white space is lost between two others. -/
theorem extractAnthropicContent_loses_space :
    ¬ ∀ responseBody content, extractAnthropicContent responseBody = .ok content →
      content = strip (String.join (contentTexts responseBody)) := by
  intro h
  have hcontent := h (contentResponse [textBlock "Hello", textBlock " ", textBlock "world"])
    "Helloworld" (by decide)
  exact absurd hcontent (by decide)

end FlowPilot.AiOrchestrator
