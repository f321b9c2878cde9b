import ClaudeProxy.Kit.MarkdownV2
import ClaudeProxy.Transcript.Render

namespace ClaudeProxy.Transcript

open Kit MarkdownV2

def mdv2SpecialChars : List Char := "\\_*[]()~`>#+-=|\x7b\x7d.!".toList

def escapeMdV2 (text : Str) : Str := text.flatMap fun ch => if ch ∈ mdv2SpecialChars then [backslash, ch] else [ch]

/-- `text.replace(old, new)` for one character. -/
def replaceChar (old : Char) (new text : Str) : Str := text.flatMap fun ch => if ch = old then new else [ch]

def escapeMdV2Code (text : Str) : Str :=
  replaceChar backquote [backslash, backquote] (replaceChar backslash [backslash, backslash] text)

def mdv2Bold (text : Str) : Str := '*' :: (escapeMdV2 text ++ ['*'])

def mdv2CodeInline (text : Str) : Str := backquote :: (escapeMdV2Code text ++ [backquote])

def telegramCtx (renderMarkdownToMdv2 : Str → Option Str) : RenderCtx where
  bold := mdv2Bold
  codeInline := mdv2CodeInline
  escapeCode := escapeMdV2Code
  escapeText := escapeMdV2
  renderMarkdown := renderMarkdownToMdv2
  thinkingTailMax := some 1000
  toolOutputTailMax := some 1600
  textTailMax := some 2000

section Escaping

theorem escapable_of_reserved {c : Char} (mem : c ∈ reserved) : escapable c = true := by
  have all : reserved.all escapable = true := by decide
  exact List.all_eq_true.mp all c mem

theorem scan_escapeMdV2 (bold : Bool) (text : Str) : scan ⟨.text, bold⟩ (escapeMdV2 text) = some ⟨.text, bold⟩ := by
  apply scan_flatMap
  intro c _
  split_ifs with special
  · have escaped : step ⟨.escape, bold⟩ c = some ⟨.text, bold⟩ := if_pos (escapable_of_reserved special)
    show scan ⟨.escape, bold⟩ [c] = some ⟨.text, bold⟩
    rw [scan_cons, escaped]
    rfl
  · apply scan_plain
    intro other mem
    rw [List.mem_singleton.mp mem]
    exact special

def escapeCodeChar (c : Char) : Str := if c = backslash ∨ c = backquote then [backslash, c] else [c]

theorem escapeMdV2Code_eq (text : Str) : escapeMdV2Code text = text.flatMap escapeCodeChar := by
  rw [escapeMdV2Code, replaceChar, replaceChar, List.flatMap_assoc]
  congr 1
  funext c
  by_cases isBackslash : c = backslash
  · subst isBackslash
    rfl
  · by_cases isBackquote : c = backquote
    · subst isBackquote
      rfl
    · simp [escapeCodeChar, isBackslash, isBackquote]

theorem scan_escapeCodeChar_code (bold : Bool) (c : Char) :
    scan ⟨.code, bold⟩ (escapeCodeChar c) = some ⟨.code, bold⟩ := by
  unfold escapeCodeChar
  split_ifs with special
  · rcases special with rfl | rfl <;> rfl
  · rw [not_or] at special
    simp [scan, step, codeStep, special]

theorem scan_escapeCodeChar_pre (bold : Bool) (c : Char) :
    scan ⟨.pre, bold⟩ (escapeCodeChar c) = some ⟨.pre, bold⟩ := by
  unfold escapeCodeChar
  split_ifs with special
  · rcases special with rfl | rfl <;> rfl
  · rw [not_or] at special
    simp [scan, step, preStep, special]

theorem scan_escapeCodeChar_tick (bold : Bool) (c : Char) :
    scan ⟨.tick, bold⟩ (escapeCodeChar c) = some ⟨.code, bold⟩ := by
  unfold escapeCodeChar
  split_ifs with special
  · rcases special with rfl | rfl <;> rfl
  · rw [not_or] at special
    simp [scan, step, codeStep, special]

theorem scan_mdv2Bold (text : Str) : scan outside (mdv2Bold text) = some outside := by
  rw [mdv2Bold, scan_cons]
  exact scan_append_of (scan_escapeMdV2 true text) _

/-- An empty inline code would begin like a `pre` block. -/
theorem scan_mdv2CodeInline {text : Str} (nonempty : text ≠ []) : scan outside (mdv2CodeInline text) = some outside := by
  obtain ⟨c, rest, rfl⟩ := List.exists_cons_of_ne_nil nonempty
  have opened := scan_escapeCodeChar_tick false c
  have inner := scan_flatMap rest fun c _ => scan_escapeCodeChar_code false c
  rw [mdv2CodeInline, escapeMdV2Code_eq, List.flatMap_cons, List.append_assoc, scan_cons]
  exact (scan_append_of opened _).trans (scan_append_of inner _)

variable (markdown : Str → Option Str)

theorem scan_block (raw : Str) : scan outside (block (telegramCtx markdown) raw) = some outside := by
  have inner := scan_flatMap raw fun c _ => scan_escapeCodeChar_pre false c
  rw [← escapeMdV2Code_eq] at inner
  have opened : scan outside fence = some ⟨.pre, false⟩ := by decide
  rw [block, scan_append_of opened, scan_cons]
  exact scan_append_of inner _

end Escaping

section Segments

variable {markdown : Str → Option Str}

theorem scan_bold (label : Str) : scan outside ((telegramCtx markdown).bold label) = some outside := scan_mdv2Bold label

theorem scan_labelled {lead : Str} (plain : scan outside lead = some outside) (label : Str) {shown : Str}
    (nonempty : shown ≠ []) : scan outside (lead ++ mdv2Bold label ++ ' ' :: mdv2CodeInline shown) = some outside := by
  rw [List.append_assoc, scan_append_of plain, scan_append_of (scan_mdv2Bold label), scan_cons]
  exact scan_mdv2CodeInline nonempty

theorem scan_spaces (n : Nat) : scan outside (List.replicate n ' ') = some outside := by
  apply scan_plain
  intro c mem
  rw [List.eq_of_mem_replicate mem]
  decide

theorem scan_toolCall (seg : ToolCallSegment) : scan outside (seg.render (telegramCtx markdown)) = some outside := by
  have lead : scan outside (List.replicate (2 * seg.indentLevel) ' ' ++ "🛠 ".toList) = some outside := by
    rw [scan_append_of (scan_spaces _)]
    decide
  exact scan_labelled lead _ seg.named

theorem scan_named (name : Option Str) :
    scan outside (match name with
      | some name => if name = [] then [] else ' ' :: mdv2CodeInline name
      | none => []) = some outside := by
  cases name with
  | none => rfl
  | some name =>
    show scan outside (if name = [] then [] else ' ' :: mdv2CodeInline name) = some outside
    split_ifs with empty
    · rfl
    · rw [scan_cons]
      exact scan_mdv2CodeInline empty

theorem scan_toolResult (seg : ToolResultSegment) : scan outside (seg.render (telegramCtx markdown)) = some outside := by
  have lead : scan outside "📤 ".toList = some outside := by decide
  unfold ToolResultSegment.render
  simp only [List.append_assoc]
  rw [scan_append_of lead, scan_append_of (scan_bold _)]
  exact (scan_append_of (scan_named seg.name) _).trans (scan_block markdown _)

theorem toString_ne_nil (n : Nat) : (toString n).toList ≠ [] := by
  show n.repr.toList ≠ []
  rw [Nat.toList_repr]
  exact Nat.toDigits_ne_nil

theorem scan_subagent (seg : SubagentSegment) : scan outside (seg.render (telegramCtx markdown)) = some outside := by
  apply scan_intercalate (by decide)
  intro line mem
  simp only [List.mem_append, List.mem_cons, List.not_mem_nil, or_false, Option.mem_toList,
    Option.map_eq_some_iff] at mem
  rcases mem with (rfl | ⟨call, -, rfl⟩) | rfl | rfl
  · exact scan_labelled (by decide) _ seg.described
  · exact scan_toolCall call
  · exact scan_labelled (by decide) _ (List.cons_ne_nil _ _)
  · exact scan_labelled (by decide) _ (toString_ne_nil _)

theorem scan_error (seg : ErrorSegment) :
    scan outside ("⚠️ ".toList ++ mdv2Bold "Error:".toList ++ ' ' :: mdv2CodeInline seg.message) = some outside :=
  scan_labelled (by decide) _ seg.worded

theorem scan_render {seg : Segment} (notText : ∀ parts, seg ≠ .text parts) {out : Str}
    (rendered : seg.render (telegramCtx markdown) = some out) : scan outside out = some outside := by
  cases seg with
  | thinking parts =>
    cases rendered
    have lead : scan outside "💭 ".toList = some outside := by decide
    rw [List.append_assoc, scan_append_of lead, scan_append_of (scan_bold _), scan_cons]
    exact scan_block markdown _
  | text parts => exact absurd rfl (notText parts)
  | toolCall call =>
    cases rendered
    exact scan_toolCall call
  | toolResult result =>
    cases rendered
    exact scan_toolResult result
  | subagent agent =>
    cases rendered
    exact scan_subagent agent
  | error failure =>
    cases rendered
    exact scan_error failure

theorem scan_rendered {b : TranscriptBuffer} (notText : ∀ parts, Segment.text parts ∉ b.segments) :
    ∀ part ∈ b.rendered (telegramCtx markdown), scan outside part = some outside := by
  intro part mem
  obtain ⟨seg, among, rendered⟩ := List.mem_filterMap.mp (List.mem_filter.mp mem).1
  exact scan_render (fun parts same => notText parts (same ▸ among)) rendered

theorem rendered_ne_nil {ctx : RenderCtx} {b : TranscriptBuffer} : ∀ part ∈ b.rendered ctx, part ≠ [] := by
  intro part mem
  exact of_decide_eq_true (List.mem_filter.mp mem).2

end Segments

end ClaudeProxy.Transcript
