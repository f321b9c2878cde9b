import ClaudeProxy.Transcript.Truncation

namespace ClaudeProxy.Transcript

open Kit

def joined (parts : List Str) : Str := List.intercalate ['\n'] parts

/-- The status is shown after an empty line. -/
def withStatus (status body : Str) : Str := body ++ "\n\n".toList ++ status

/-- What a rendering of these parts owes to its reader. -/
structure KeepsTail (limitChars : Int) (marker status : Str) (parts : List Str) (out : Str) : Prop where
  bounded : out.length ≤ limitChars
  ended : status <:+ out
  whole : (withStatus status (joined parts)).length ≤ limitChars → out = withStatus status (joined parts)
  tail : limitChars < (withStatus status (joined parts)).length →
    ∀ last, parts.getLast? = some last → (withStatus status (marker ++ last)).length ≤ limitChars →
      ∃ kept, kept <:+ parts ∧ kept ≠ [] ∧ out = withStatus status (marker ++ joined kept) ∧
        ∀ other, other <:+ parts → (withStatus status (marker ++ joined other)).length ≤ limitChars →
          other.length ≤ kept.length

variable {limitChars : Int} {marker ending status : Str} {parts : List Str}

theorem length_joinParts_le (marker ending : Str) (parts : List Str) :
    (joinParts marker ending parts true).length ≤ marker.length + (joined parts).length + ending.length := by
  unfold joinParts
  simp only [true_and]
  split_ifs with shown
  · rw [List.length_append, List.length_append]
    exact Nat.le_refl _
  · rw [List.length_append]
    show (joined parts).length + ending.length ≤ _
    omega

/-- The longest tail that fits is kept, since longer ones are tried first. -/
theorem keepTail_longest {candidate : Str} (kept : keepTail limitChars marker ending parts = some candidate) :
    ∃ tail, tail <:+ parts ∧ tail ≠ [] ∧ candidate = joinParts marker ending tail true ∧ candidate.length ≤ limitChars ∧
      ∀ other, other <:+ parts → (joinParts marker ending other true).length ≤ limitChars → other.length ≤ tail.length := by
  induction parts with
  | nil => cases kept
  | cons part parts ih =>
    rw [keepTail] at kept
    split_ifs at kept with fits
    · cases kept
      exact ⟨_, List.suffix_rfl, List.cons_ne_nil _ _, rfl, fits, fun other suffix _ => suffix.length_le⟩
    · obtain ⟨tail, suffix, nonempty, same, short, longest⟩ := ih kept
      refine ⟨tail, suffix.trans (List.suffix_cons _ _), nonempty, same, short, fun other here otherFits => ?_⟩
      rcases List.suffix_cons_iff.mp here with rfl | later
      · exact absurd otherFits fits
      · exact longest other later otherFits

theorem dropWhile_statusText (nonempty : status ≠ []) (headed : ∀ rest, status ≠ '\n' :: rest) :
    (statusText status).dropWhile (· = '\n') = status := by
  rw [statusText_eq nonempty]
  show status.dropWhile (· = '\n') = status
  cases status with
  | nil => rfl
  | cons c rest =>
    apply List.dropWhile_cons_of_neg
    intro newline
    exact headed rest (of_decide_eq_true newline ▸ rfl)

theorem minimal_bounded (fits : status.length ≤ limitChars) : (minimal limitChars marker status).length ≤ limitChars := by
  unfold minimal
  show ((if _ then _ else _ : Str).length : Int) ≤ limitChars
  split_ifs with short
  · exact short
  · exact fits

theorem minimal_status (nonempty : status ≠ []) (headed : ∀ rest, status ≠ '\n' :: rest) :
    status <:+ minimal limitChars marker status := by
  unfold minimal
  rw [dropWhile_statusText nonempty headed]
  show status <:+ (if _ then _ else _)
  split_ifs
  · exact List.suffix_append _ _
  · exact List.suffix_rfl

theorem cutLast_bounded {lastPart candidate : Str} (cut : cutLast limitChars marker ending lastPart = some candidate) :
    candidate.length ≤ limitChars ∧ ending <:+ candidate := by
  simp only [cutLast] at cut
  split_ifs at cut with long fits fits
  · cases cut
    exact ⟨fits.2, List.suffix_append _ _⟩
  · cases cut
    exact ⟨fits.2, List.suffix_append _ _⟩

theorem withStatus_eq (nonempty : status ≠ []) (body : Str) : body ++ statusText status = withStatus status body := by
  rw [withStatus, statusText, if_neg nonempty, List.append_assoc]

theorem length_withStatus (status body : Str) : (withStatus status body).length = body.length + status.length + 2 := by
  rw [withStatus, List.append_assoc, List.length_append, List.length_append]
  show body.length + (2 + status.length) = _
  omega

theorem suffix_withStatus (status body : Str) : status <:+ withStatus status body := List.suffix_append _ _

theorem joinParts_tail (nonempty : status ≠ []) (each : ∀ part ∈ parts, part ≠ []) (some : parts ≠ []) :
    joinParts marker (statusText status) parts true = withStatus status (marker ++ joined parts) := by
  obtain ⟨part, mem⟩ := List.exists_mem_of_ne_nil parts some
  have body := intercalate_ne_nil mem (each part mem)
  rw [← withStatus_eq nonempty]
  simp [joinParts, joined, body]

theorem keepsTail_assemble (each : ∀ part ∈ parts, part ≠ []) (nonempty : status ≠ [])
    (headed : ∀ rest, status ≠ '\n' :: rest) (fits : status.length ≤ limitChars) :
    KeepsTail limitChars marker status parts (assemble limitChars marker status parts) := by
  have shape : joinParts marker (statusText status) parts false = withStatus status (joined parts) :=
    withStatus_eq nonempty _
  unfold assemble
  rw [shape]
  by_cases all : (withStatus status (joined parts)).length ≤ limitChars
  · rw [if_pos all]
    exact ⟨all, suffix_withStatus _ _, fun _ => rfl, fun long => by omega⟩
  rw [if_neg all]
  cases found : parts.getLast? with
  | none =>
    have empty := List.getLast?_eq_none_iff.mp found
    subst empty
    exact ⟨fits, List.suffix_rfl, fun short => absurd short all, fun _ last found => by cases found⟩
  | some last =>
    have lastNonempty := each last (List.mem_of_getLast? found)
    cases kept : keepTail limitChars marker (statusText status) parts with
    | some candidate =>
      obtain ⟨tail, suffix, some, rfl, short, longest⟩ := keepTail_longest kept
      have same : joinParts marker (statusText status) tail true = withStatus status (marker ++ joined tail) :=
        joinParts_tail nonempty (fun part mem => each part (suffix.subset mem)) some
      refine ⟨short, ?_, fun whole => absurd whole all, fun _ _ _ _ => ⟨tail, suffix, some, same, ?_⟩⟩
      · simp only [same]
        exact suffix_withStatus _ _
      · intro other here otherFits
        apply longest other here
        have bound := length_joinParts_le marker (statusText status) other
        rw [length_withStatus, List.length_append] at otherFits
        rw [length_statusText nonempty] at bound
        omega
    | none =>
      have tail : ∀ other, parts.getLast? = some other → ¬ (withStatus status (marker ++ other)).length ≤ limitChars := by
        intro other same short
        rw [length_withStatus, List.length_append] at short
        have room : marker.length + other.length + (statusText status).length ≤ limitChars := by
          rw [length_statusText nonempty]
          omega
        obtain ⟨candidate, kept'⟩ := keepTail_some same (each other (List.mem_of_getLast? same)) room
        rw [kept] at kept'
        cases kept'
      have unkept : ∀ out : Str, out.length ≤ limitChars → status <:+ out →
        KeepsTail limitChars marker status parts out := by
        intro out bounded ended
        exact ⟨bounded, ended, fun whole => absurd whole all, fun _ other same short => absurd short (tail other same)⟩
      cases cut : cutLast limitChars marker (statusText status) last with
      | some candidate =>
        obtain ⟨bounded, ended⟩ := cutLast_bounded cut
        rw [statusText_eq nonempty] at ended
        simp only [cut]
        exact unkept candidate bounded (((List.suffix_cons _ _).trans (List.suffix_cons _ _)).trans ended)
      | none =>
        simp only [cut]
        exact unkept _ (minimal_bounded fits) (minimal_status nonempty headed)

theorem render_keepsTail [PyText] (ctx : RenderCtx) (showToolResults : Bool) (events : List Event)
    (limitChars : Int) (status : Str)
    (nonempty : status ≠ []) (headed : ∀ rest, status ≠ '\n' :: rest) (fits : status.length ≤ limitChars) :
    KeepsTail limitChars (TranscriptBuffer.prefixMarker ctx) status
      (((TranscriptBuffer.new showToolResults).applyAll events).rendered ctx)
      (((TranscriptBuffer.new showToolResults).applyAll events).render ctx limitChars (some status)) :=
  keepsTail_assemble rendered_ne_nil nonempty headed fits

section Sample

attribute [local instance] PyText.ascii

def failures : TranscriptBuffer := (TranscriptBuffer.new true).applyAll
  [.error (.string "timeout".toList), .error (.string "timeout".toList), .error (.string "failed".toList)]

theorem render_keepsTail_failures :
    KeepsTail 60 (TranscriptBuffer.prefixMarker (telegramCtx some)) "Done".toList (failures.rendered (telegramCtx some))
      (failures.render (telegramCtx some) 60 (some "Done".toList)) :=
  render_keepsTail (telegramCtx some) true _ 60 "Done".toList (by decide) (by intro rest same; cases same) (by decide)

end Sample

end ClaudeProxy.Transcript
