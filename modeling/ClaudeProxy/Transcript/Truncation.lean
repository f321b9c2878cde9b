import ClaudeProxy.Transcript.TelegramMarkdown

namespace ClaudeProxy.Transcript

open Kit MarkdownV2

/-- No part is cut through: there is none, all of them fit, the last one fits with the marker, or there is no room for a
    piece of it. -/
def Uncut (limitChars : Int) (marker status : Str) (parts : List Str) : Prop :=
  parts = [] ∨ (List.intercalate ['\n'] parts).length + 2 + status.length ≤ limitChars ∨
    (∃ last, parts.getLast? = some last ∧ marker.length + last.length + 2 + status.length ≤ limitChars) ∨
    limitChars ≤ marker.length + 2 + status.length + 20

section Parts

variable {limitChars : Int} {marker ending part last : Str} {parts : List Str}

theorem length_le_intercalate (separator : Str) (mem : part ∈ parts) :
    part.length ≤ (List.intercalate separator parts).length := by
  induction parts with
  | nil => cases mem
  | cons first rest ih =>
    cases rest with
    | nil =>
      rw [List.mem_singleton.mp mem]
      simp [List.intercalate]
    | cons next rest =>
      have shape : List.intercalate separator (first :: next :: rest) =
          first ++ (separator ++ List.intercalate separator (next :: rest)) := by
        simp [List.intercalate, List.intersperse]
      rw [shape, List.length_append, List.length_append]
      rcases List.mem_cons.mp mem with rfl | later
      · omega
      · have shorter := ih later
        omega

theorem length_joinParts (marker ending : Str) (nonempty : List.intercalate ['\n'] parts ≠ []) :
    (joinParts marker ending parts true).length =
      marker.length + (List.intercalate ['\n'] parts).length + ending.length := by
  simp [joinParts, nonempty, Nat.add_assoc]

theorem joinParts_last (nonempty : last ≠ []) : joinParts marker ending [last] true = marker ++ last ++ ending := by
  simp [joinParts, List.intercalate, nonempty]

theorem intercalate_ne_nil (mem : part ∈ parts) (nonempty : part ≠ []) : List.intercalate ['\n'] parts ≠ [] := by
  intro empty
  have shorter := length_le_intercalate ['\n'] mem
  rw [empty] at shorter
  exact nonempty (List.length_eq_zero_iff.mp (Nat.le_zero.mp shorter))

/-- Where the last part does not fit with the marker, no longer tail does. -/
theorem keepTail_none (found : parts.getLast? = some last) (nonempty : last ≠ [])
    (long : limitChars < marker.length + last.length + ending.length) :
    keepTail limitChars marker ending parts = none := by
  induction parts with
  | nil => cases found
  | cons part parts ih =>
    have mem := List.mem_of_getLast? found
    have shorter := length_le_intercalate ['\n'] mem
    have length := length_joinParts marker ending (intercalate_ne_nil mem nonempty)
    rw [keepTail, if_neg (by omega)]
    cases parts with
    | nil => rfl
    | cons next rest => exact ih (by simpa using found)

theorem keepTail_some (found : parts.getLast? = some last) (nonempty : last ≠ [])
    (fits : marker.length + last.length + ending.length ≤ limitChars) :
    ∃ candidate, keepTail limitChars marker ending parts = some candidate := by
  induction parts with
  | nil => cases found
  | cons part parts ih =>
    rw [keepTail]
    split_ifs with short
    · exact ⟨_, rfl⟩
    · cases parts with
      | nil =>
        have same : part = last := by simpa using found
        rw [same, joinParts_last nonempty, List.length_append, List.length_append] at short
        omega
      | cons next rest => exact ih (by simpa using found)

theorem keepTail_kept {candidate : Str} (kept : keepTail limitChars marker ending parts = some candidate) :
    ∃ tail, tail <:+ parts ∧ candidate = joinParts marker ending tail true := by
  induction parts with
  | nil => cases kept
  | cons part parts ih =>
    rw [keepTail] at kept
    split_ifs at kept
    · cases kept
      exact ⟨_, List.suffix_rfl, rfl⟩
    · obtain ⟨tail, suffix, same⟩ := ih kept
      exact ⟨tail, suffix.trans (List.suffix_cons _ _), same⟩

theorem valid_joinParts (marked : scan outside marker = some outside)
    (each : ∀ part ∈ parts, scan outside part = some outside) (valid : Valid ending) (addMarker : Bool) :
    Valid (joinParts marker ending parts addMarker) := by
  have newline : scan outside ['\n'] = some outside := by decide
  have body := scan_intercalate newline parts each
  apply Valid.append_of _ valid
  split_ifs
  · rw [scan_append_of marked, body]
  · exact body

end Parts

section Cut

variable {limitChars : Int} {marker ending lastPart status : Str}

theorem length_sliceFrom {s : Str} {n : Int} (positive : 0 < n) (short : n ≤ s.length) :
    ((sliceFrom (-n) s).length : Int) = n := by
  rw [sliceFrom, List.length_drop, if_pos (by omega)]
  omega

/-- A cut part has a point after the marker that is not escaped. -/
theorem scan_cut (marked : scan outside marker = some outside) (rest : Str) :
    scan outside (marker ++ ("...".toList ++ rest)) = none := by
  rw [scan_append_of marked]
  rfl

theorem cutLast_some (long : limitChars < marker.length + lastPart.length + ending.length)
    (room : marker.length + ending.length + 20 < limitChars) :
    ∃ rest, cutLast limitChars marker ending lastPart = some (marker ++ ("...".toList ++ rest)) := by
  have budget : limitChars - marker.length - ending.length < lastPart.length := by omega
  have length := length_sliceFrom (s := lastPart) (n := limitChars - marker.length - ending.length - 3)
    (by omega) (by omega)
  have points : ("...".toList).length = 3 := rfl
  refine ⟨sliceFrom (-(limitChars - marker.length - ending.length - 3)) lastPart ++ ending, ?_⟩
  simp only [cutLast, if_pos budget]
  rw [if_pos]
  · rw [List.append_assoc, List.append_assoc]
  · simp only [List.length_append]
    omega

theorem cutLast_none (cramped : limitChars ≤ marker.length + ending.length + 20) :
    cutLast limitChars marker ending lastPart = none := by
  apply if_neg
  omega

theorem statusText_eq (nonempty : status ≠ []) : statusText status = '\n' :: '\n' :: status := if_neg nonempty

theorem valid_statusText (nonempty : status ≠ []) (valid : Valid status) : Valid (statusText status) := by
  rw [statusText, if_neg nonempty]
  exact Valid.append_of (by decide) valid

theorem length_statusText (nonempty : status ≠ []) : (statusText status).length = status.length + 2 := by
  rw [statusText_eq nonempty]
  rfl

theorem valid_minimal (marked : scan outside marker = some outside) (nonempty : status ≠ []) (valid : Valid status) :
    Valid (minimal limitChars marker status) := by
  have trimmed : Valid ((statusText status).dropWhile (· = '\n')) := by
    unfold Valid
    rw [scan_dropNewlines]
    exact valid_statusText nonempty valid
  unfold minimal
  show Valid (if _ then _ else _)
  split_ifs
  · exact Valid.append_of marked trimmed
  · exact valid

end Cut

section Assemble

variable {limitChars : Int} {marker status : Str} {parts : List Str}

theorem length_joinParts_false (marker ending : Str) (parts : List Str) :
    (joinParts marker ending parts false).length = (List.intercalate ['\n'] parts).length + ending.length := by
  simp [joinParts]

theorem valid_assemble_iff (marked : scan outside marker = some outside)
    (each : ∀ part ∈ parts, scan outside part = some outside ∧ part ≠ []) (nonempty : status ≠ [])
    (valid : Valid status) :
    Valid (assemble limitChars marker status parts) ↔ Uncut limitChars marker status parts := by
  have scanned : ∀ part ∈ parts, scan outside part = some outside := fun part mem => (each part mem).1
  have stated := valid_statusText nonempty valid
  have statusLength := length_statusText nonempty
  have whole := length_joinParts_false marker (statusText status) parts
  unfold assemble
  by_cases fits : (joinParts marker (statusText status) parts false).length ≤ limitChars
  · rw [if_pos fits]
    exact iff_of_true (valid_joinParts marked scanned stated false) (.inr (.inl (by omega)))
  rw [if_neg fits]
  cases found : parts.getLast? with
  | none =>
    have empty := List.getLast?_eq_none_iff.mp found
    rw [empty]
    exact iff_of_true valid (.inl rfl)
  | some last =>
    have lastNonempty := (each last (List.mem_of_getLast? found)).2
    by_cases lastFits : marker.length + last.length + (statusText status).length ≤ limitChars
    · obtain ⟨candidate, kept⟩ := keepTail_some found lastNonempty lastFits
      obtain ⟨tail, suffix, rfl⟩ := keepTail_kept kept
      rw [kept]
      apply iff_of_true
      · exact valid_joinParts marked (fun part mem => scanned part (suffix.subset mem)) stated true
      · exact .inr (.inr (.inl ⟨last, found, by omega⟩))
    rw [keepTail_none found lastNonempty (by omega)]
    by_cases room : marker.length + (statusText status).length + 20 < limitChars
    · obtain ⟨rest, cut⟩ := cutLast_some (Int.not_le.mp lastFits) room
      simp only [cut]
      apply iff_of_false (not_valid_of_none (scan_cut marked rest))
      intro uncut
      rcases uncut with empty | short | ⟨other, same, short⟩ | cramped
      · rw [empty] at found
        cases found
      · omega
      · rw [found] at same
        cases same
        omega
      · omega
    · simp only [cutLast_none (Int.not_lt.mp room)]
      exact iff_of_true (valid_minimal marked nonempty valid) (.inr (.inr (.inr (by omega))))

end Assemble

theorem scan_prefixMarker {markdown : Str → Option Str} :
    scan outside (TranscriptBuffer.prefixMarker (telegramCtx markdown)) = some outside := scan_escapeMdV2 false _

/-- The status alone need not fit. -/
theorem valid_render_iff [PyText] (renderMarkdownToMdv2 : Str → Option Str) (showToolResults : Bool) (events : List Event)
    (limitChars : Int) (status : Str) (nonempty : status ≠ []) (valid : Valid status)
    (notText : ∀ parts, Segment.text parts ∉ ((TranscriptBuffer.new showToolResults).applyAll events).segments) :
    Valid (((TranscriptBuffer.new showToolResults).applyAll events).render (telegramCtx renderMarkdownToMdv2) limitChars
        (some status)) ↔
      Uncut limitChars (TranscriptBuffer.prefixMarker (telegramCtx renderMarkdownToMdv2)) status
        (((TranscriptBuffer.new showToolResults).applyAll events).rendered (telegramCtx renderMarkdownToMdv2)) := by
  apply valid_assemble_iff scan_prefixMarker _ nonempty valid
  intro part mem
  exact ⟨scan_rendered notText part mem, rendered_ne_nil part mem⟩

section Samples

attribute [local instance] PyText.ascii

theorem valid_render_iff_failed :
    Valid (((TranscriptBuffer.new true).applyAll [.error (.string "failed".toList)]).render (telegramCtx some) 3900
        (some "Done".toList)) ↔
      Uncut 3900 (TranscriptBuffer.prefixMarker (telegramCtx some)) "Done".toList
        (((TranscriptBuffer.new true).applyAll [.error (.string "failed".toList)]).rendered (telegramCtx some)) := by
  apply valid_render_iff some true [.error (.string "failed".toList)] 3900 "Done".toList (by decide) (by decide)
  intro parts mem
  cases List.mem_singleton.mp mem

theorem length_le_escapeMdV2Code (text : Str) : text.length ≤ (escapeMdV2Code text).length := by
  rw [escapeMdV2Code_eq]
  induction text with
  | nil => exact Nat.le_refl _
  | cons c rest ih =>
    have one : 1 ≤ (escapeCodeChar c).length := by
      unfold escapeCodeChar
      split_ifs <;> simp
    rw [List.flatMap_cons, List.length_append, List.length_cons]
    omega

def failure (message : Str) : TranscriptBuffer := (TranscriptBuffer.new true).applyAll [.error (.string message)]

theorem rendered_failure (renderMarkdownToMdv2 : Str → Option Str) {message : Str} (nonempty : message ≠ []) :
    (failure message).rendered (telegramCtx renderMarkdownToMdv2) =
      ["⚠️ ".toList ++ mdv2Bold "Error:".toList ++ ' ' :: mdv2CodeInline message] := by
  have worded : (ErrorSegment.new (Json.string message).str).message = message := if_neg nonempty
  show [_].filter _ = _
  rw [worded]
  rfl

theorem not_uncut_singleton {limitChars : Int} {marker status part : Str} (long : limitChars < part.length)
    (room : marker.length + 2 + status.length + 20 < limitChars) : ¬ Uncut limitChars marker status [part] := by
  have within := length_le_intercalate ['\n'] (List.mem_singleton_self part)
  intro uncut
  rcases uncut with none | whole | ⟨last, found, fits⟩ | cramped
  · cases none
  · omega
  · have same : part = last := by simpa using found
    rw [← same] at fits
    omega
  · omega

/-- Of an error message that is longer than the limit only the end is shown. -/
theorem not_valid_render : ¬ ∀ (renderMarkdownToMdv2 : Str → Option Str) (showToolResults : Bool) (events : List Event)
    (limitChars : Int) (status : Str), status ≠ [] → Valid status → status.length ≤ limitChars →
    (∀ parts, Segment.text parts ∉ ((TranscriptBuffer.new showToolResults).applyAll events).segments) →
    Valid (((TranscriptBuffer.new showToolResults).applyAll events).render (telegramCtx renderMarkdownToMdv2) limitChars
      (some status)) := by
  intro claimed
  have nonempty : List.replicate 4000 'a' ≠ [] := List.cons_ne_nil _ _
  have shown := claimed some true [.error (.string (List.replicate 4000 'a'))] 3900 "Done".toList (by decide) (by decide)
    (by decide) (by intro parts mem; cases List.mem_singleton.mp mem)
  have scanned := scan_error (.new (List.replicate 4000 'a'))
  have long := length_le_escapeMdV2Code (List.replicate 4000 'a')
  rw [List.length_replicate] at long
  rw [← failure, TranscriptBuffer.render, rendered_failure some nonempty, Option.getD_some,
    valid_assemble_iff scan_prefixMarker _ (by decide) (by decide)] at shown
  · revert shown
    apply not_uncut_singleton
    · simp only [mdv2CodeInline, List.length_append, List.length_cons]
      omega
    · decide
  · intro part mem
    rw [List.mem_singleton.mp mem]
    exact ⟨scanned, List.cons_ne_nil _ _⟩

end Samples

end ClaudeProxy.Transcript
