import ClaudeProxy.Providers.ThinkTagParser

namespace ClaudeProxy.Providers

open Kit

def tagsOf (inThink : Bool) : List Str :=
  if inThink then [ThinkTagParser.closeTag] else [ThinkTagParser.openTag, ThinkTagParser.closeTag]

/-- A bracket opens a tag and occurs nowhere else in it. -/
def BracketTag (tag : Str) : Prop := ∃ body, tag = '<' :: body ∧ '<' ∉ body

theorem openTag_bracket : BracketTag ThinkTagParser.openTag := ⟨"think>".toList, by decide, by decide⟩

theorem closeTag_bracket : BracketTag ThinkTagParser.closeTag := ⟨"/think>".toList, by decide, by decide⟩

theorem tagsOf_bracket {inThink : Bool} {tag : Str} (member : tag ∈ tagsOf inThink) : BracketTag tag := by
  cases inThink with
  | true => exact List.mem_singleton.mp member ▸ closeTag_bracket
  | false =>
    rcases List.mem_cons.mp member with rfl | member
    · exact openTag_bracket
    · exact List.mem_singleton.mp member ▸ closeTag_bracket

theorem tagAt_eq_none {inThink : Bool} {s : Str} (clear : ∀ tag ∈ tagsOf inThink, ¬ tag <+: s) :
    tagAt inThink s = none := by
  cases inThink <;> simp_all [tagAt, tagsOf]

/-- The characters of a text as pieces of one type. -/
def plain (type : ContentType) (s : Str) : List ContentChunk := s.map fun c => ⟨type, [c]⟩

theorem scan_skip (inThink : Bool) (tag rest : Str) : scan inThink tag.length (tag ++ rest) = scan inThink 0 rest := by
  induction tag with
  | nil => rfl
  | cons c tag ih =>
    rw [List.length_cons, List.cons_append, scan]
    exact ih

theorem scan_open (rest : Str) : scan false 0 (ThinkTagParser.openTag ++ rest) = scan true 0 rest := by
  have here : tagAt false (ThinkTagParser.openTag ++ rest) = some (ThinkTagParser.openTagLen, true) := by
    simp [tagAt]
  change scan false 0 ('<' :: ("think>".toList ++ rest)) = _
  change tagAt false ('<' :: ("think>".toList ++ rest)) = _ at here
  rw [scan, here]
  exact scan_skip true "think>".toList rest

theorem scan_close (inThink : Bool) (rest : Str) :
    scan inThink 0 (ThinkTagParser.closeTag ++ rest) = scan false 0 rest := by
  have other : ¬ ThinkTagParser.openTag <+: ThinkTagParser.closeTag ++ rest := by
    intro occurs
    have short := prefix_of_prefix_append occurs (by decide)
    revert short
    decide
  have here : tagAt inThink (ThinkTagParser.closeTag ++ rest) = some (ThinkTagParser.closeTagLen, false) := by
    simp [tagAt, other]
  change scan inThink 0 ('<' :: ("/think>".toList ++ rest)) = _
  change tagAt inThink ('<' :: ("/think>".toList ++ rest)) = _ at here
  rw [scan, here]
  exact scan_skip false "/think>".toList rest

/-- Where no tag starts, the scan reads character by character. -/
theorem scan_plain (inThink : Bool) (s rest : Str)
    (clear : ∀ i < s.length, ∀ tag ∈ tagsOf inThink, ¬ tag <+: (s ++ rest).drop i) :
    scan inThink 0 (s ++ rest) = plain (contentType inThink) s ++ scan inThink 0 rest := by
  induction s with
  | nil => rfl
  | cons c s ih =>
    have none' : tagAt inThink (c :: (s ++ rest)) = none :=
      tagAt_eq_none (clear 0 (by rw [List.length_cons]; omega))
    rw [List.cons_append, scan, none']
    have later := ih fun i bound => clear (i + 1) (by rw [List.length_cons]; omega)
    rw [later]
    rfl

/-- A tag that starts before a bracket ends before it. -/
theorem tag_fits {tag s rest : Str} {i : Nat} (bracket : BracketTag tag) (inside : i < s.length)
    (next : rest.head? = some '<') (occurs : tag <+: (s ++ rest).drop i) : i + tag.length ≤ s.length := by
  obtain ⟨body, rfl, free⟩ := bracket
  obtain ⟨more, eq⟩ := occurs
  by_contra long
  rw [List.length_cons] at long
  have position : (('<' :: body) ++ more)[s.length - i]? = some '<' := by
    rw [eq, List.getElem?_drop, List.getElem?_append_right (by omega), ← next, List.head?_eq_getElem?]
    congr 1
    omega
  obtain ⟨k, offset⟩ : ∃ k, s.length - i = k + 1 := ⟨s.length - i - 1, by omega⟩
  rw [offset, List.cons_append, List.getElem?_cons_succ, List.getElem?_append_left (by omega)] at position
  exact free (List.mem_of_getElem? position)

/-- A tag that starts in the buffer and is cut off by its end starts at the last bracket. -/
theorem tag_straddles {tag buffer rest : Str} {i : Nat} (bracket : BracketTag tag) (inside : i < buffer.length)
    (long : buffer.length < i + tag.length) (occurs : tag <+: (buffer ++ rest).drop i) :
    rfind ['<'] buffer = some i ∧ buffer.drop i <+: tag ∧ (buffer.drop i).length < tag.length := by
  have start : buffer.drop i <+: tag := by
    rw [List.drop_append_of_le_length (by omega)] at occurs
    exact List.prefix_of_prefix_length_le (List.prefix_append ..) occurs (by rw [List.length_drop]; omega)
  have shorter : (buffer.drop i).length < tag.length := by
    rw [List.length_drop]
    omega
  refine ⟨?_, start, shorter⟩
  obtain ⟨body, rfl, free⟩ := bracket
  obtain ⟨tail, dropped⟩ : ∃ tail, buffer.drop i = '<' :: tail := by
    cases here : buffer.drop i with
    | nil =>
      have empty := congrArg List.length here
      rw [List.length_drop, List.length_nil] at empty
      omega
    | cons c tail =>
      rw [here] at start
      exact ⟨tail, by rw [(List.cons_prefix_cons.mp start).1]⟩
  have tailFree : '<' ∉ tail := by
    rw [dropped] at start
    intro member
    exact free ((List.cons_prefix_cons.mp start).2.subset member)
  have occursHere : ['<'] <+: buffer.drop i := by
    rw [dropped]
    exact ⟨tail, rfl⟩
  cases found : rfind ['<'] buffer with
  | none => exact absurd occursHere (rfind_eq_none found i)
  | some last =>
    obtain ⟨bound, here, after⟩ := rfind_eq_some found
    rcases Nat.lt_trichotomy last i with before | same | later
    · exact absurd occursHere (after i before (by omega))
    · rw [same]
    · exfalso
      obtain ⟨k, rfl⟩ : ∃ k, last = i + (k + 1) := ⟨last - i - 1, by omega⟩
      rw [← List.drop_drop, dropped, List.drop_succ_cons] at here
      exact tailFree (List.mem_of_mem_drop (here.subset (List.mem_singleton_self _)))

/-- Up to a bracket before which no tag starts the scan reads character by character, whatever follows. -/
theorem scan_before (inThink : Bool) {buffer : Str} {i : Nat} (rest : Str) (bound : i ≤ buffer.length)
    (bracket : (buffer.drop i).head? = some '<')
    (clear : ∀ tag ∈ tagsOf inThink, ∀ j < i, ¬ tag <+: buffer.drop j) :
    scan inThink 0 (buffer ++ rest) =
      plain (contentType inThink) (buffer.take i) ++ scan inThink 0 (buffer.drop i ++ rest) := by
  have next : (buffer.drop i ++ rest).head? = some '<' := by
    rw [List.head?_append, bracket]
    rfl
  have split : buffer ++ rest = buffer.take i ++ (buffer.drop i ++ rest) := by
    rw [← List.append_assoc, List.take_append_drop]
  rw [split]
  apply scan_plain
  intro j inside tag member occurs
  have fits := tag_fits (tagsOf_bracket member) inside next occurs
  rw [List.length_take, Nat.min_eq_left bound] at inside fits
  rw [← split] at occurs
  exact clear tag member j inside (prefix_drop_of_append occurs (by omega))

theorem scan_all (inThink : Bool) (buffer rest : Str) (clear : ∀ tag ∈ tagsOf inThink, ∀ j, ¬ tag <+: buffer.drop j)
    (whole : ∀ tag ∈ tagsOf inThink, ∀ i, rfind ['<'] buffer = some i → buffer.drop i <+: tag →
      ¬ (buffer.drop i).length < tag.length) :
    scan inThink 0 (buffer ++ rest) = plain (contentType inThink) buffer ++ scan inThink 0 rest := by
  apply scan_plain
  intro j inside tag member occurs
  by_cases fits : j + tag.length ≤ buffer.length
  · exact clear tag member j (prefix_drop_of_append occurs fits)
  · obtain ⟨last, start, shorter⟩ := tag_straddles (tagsOf_bracket member) inside (by omega) occurs
    exact whole tag member j last start shorter

def pieces (chunks : List ContentChunk) : List ContentChunk :=
  chunks.flatMap fun chunk => plain chunk.type chunk.content

namespace ThinkTagParser

theorem pieces_chunkOf (type : ContentType) (emit : Str) : pieces (chunkOf type emit).toList = plain type emit := by
  unfold chunkOf
  split
  · rename_i empty
    rw [empty]
    rfl
  · simp [pieces]

theorem head_of_tag {tag s : Str} (bracket : BracketTag tag) (start : tag <+: s) : s.head? = some '<' := by
  obtain ⟨body, rfl, _⟩ := bracket
  obtain ⟨rest, rfl⟩ := start
  rfl

theorem drop_of_tag {tag s : Str} {i : Nat} (occurs : tag <+: s.drop i) :
    s.drop i = tag ++ s.drop (i + tag.length) := by
  obtain ⟨rest, eq⟩ := occurs
  rw [← eq, ← List.drop_drop, ← eq, List.drop_left]

theorem head_of_rfind {s : Str} {i : Nat} (found : rfind ['<'] s = some i) : (s.drop i).head? = some '<' := by
  obtain ⟨_, ⟨rest, eq⟩, _⟩ := rfind_eq_some found
  rw [← eq]
  rfl

/-- What the scan reads next is what the parser yields, then what the scan reads of the new buffer. -/
def Reads (p : ThinkTagParser) (chunks : List ContentChunk) (next : ThinkTagParser) : Prop :=
  ∀ rest, scan p.inThinkTag 0 (p.buffer ++ rest) = pieces chunks ++ scan next.inThinkTag 0 (next.buffer ++ rest)

theorem reads_tag {p next : ThinkTagParser} {tag : Str} {i : Nat} (bracket : BracketTag tag)
    (bound : i ≤ p.buffer.length) (here : tag <+: p.buffer.drop i)
    (clear : ∀ other ∈ tagsOf p.inThinkTag, ∀ j < i, ¬ other <+: p.buffer.drop j)
    (enters : ∀ rest, scan p.inThinkTag 0 (tag ++ rest) = scan next.inThinkTag 0 rest)
    (dropped : next.buffer = p.buffer.drop (i + tag.length)) :
    Reads p (chunkOf (contentType p.inThinkTag) (p.buffer.take i)).toList next := by
  intro rest
  rw [scan_before p.inThinkTag rest bound (head_of_tag bracket here) clear, pieces_chunkOf, drop_of_tag here,
    List.append_assoc, enters, dropped]

theorem rfind_of_partialOutside {buffer : Str} {i : Nat} (held : partialOutside buffer = some i) :
    rfind ['<'] buffer = some i := by
  unfold partialOutside at held
  cases found : rfind ['<'] buffer with
  | none => simp [found] at held
  | some last =>
    rw [found] at held
    dsimp only at held
    split at held
    · exact held
    · cases held

theorem rfind_of_partialInside {buffer : Str} {i : Nat} (held : partialInside buffer = some i) :
    rfind ['<'] buffer = some i := by
  unfold partialInside at held
  cases found : rfind ['<'] buffer with
  | none => simp [found] at held
  | some last =>
    rw [found] at held
    dsimp only at held
    split at held
    · exact held
    · cases held

theorem partialOutside_none {buffer : Str} (none' : partialOutside buffer = none) {tag : Str} (member : tag ∈ tagsOf false)
    {i : Nat} (found : rfind ['<'] buffer = some i) (start : buffer.drop i <+: tag) :
    ¬ (buffer.drop i).length < tag.length := by
  intro shorter
  unfold partialOutside at none'
  rw [found] at none'
  dsimp only at none'
  split at none'
  · cases none'
  · rename_i neither
    apply neither
    rcases List.mem_cons.mp member with rfl | member
    · exact .inl ⟨shorter, (isPrefixOf_iff ..).mpr start⟩
    · rw [List.mem_singleton.mp member] at start shorter
      exact .inr ⟨shorter, (isPrefixOf_iff ..).mpr start⟩

theorem partialInside_none {buffer : Str} (none' : partialInside buffer = none) {tag : Str} (member : tag ∈ tagsOf true)
    {i : Nat} (found : rfind ['<'] buffer = some i) (start : buffer.drop i <+: tag) :
    ¬ (buffer.drop i).length < tag.length := by
  intro shorter
  rw [List.mem_singleton.mp member] at start shorter
  unfold partialInside at none'
  rw [found] at none'
  dsimp only at none'
  rw [List.length_drop] at shorter
  split at none'
  · cases none'
  · rename_i neither
    exact neither ⟨shorter, (isPrefixOf_iff ..).mpr start⟩

theorem orphanFirst_some {thinkStart orphanClose : Option Nat} (orphan : orphanFirst thinkStart orphanClose = true) :
    ∃ i, orphanClose = some i ∧ ∀ first, thinkStart = some first → i < first := by
  cases orphanClose with
  | none => cases thinkStart <;> cases orphan
  | some i =>
    refine ⟨i, rfl, fun first start => ?_⟩
    rw [start] at orphan
    exact of_decide_eq_true orphan

theorem parseOutsideThink_reads (buffer : Str) :
    Reads ⟨buffer, false⟩ (parseOutsideThink ⟨buffer, false⟩).1.toList (parseOutsideThink ⟨buffer, false⟩).2 := by
  unfold parseOutsideThink
  dsimp only
  split
  · rename_i orphan
    obtain ⟨i, close, first⟩ := orphanFirst_some orphan
    obtain ⟨bound, here, before⟩ := find_eq_some close
    have noOpen (j : Nat) (earlier : j < i) : ¬ openTag <+: buffer.drop j := by
      cases start : find openTag buffer with
      | none => exact find_eq_none start j
      | some later => exact (find_eq_some start).2.2 j (by have := first later start; omega)
    rw [close, Option.getD_some]
    refine reads_tag (p := ⟨buffer, false⟩) closeTag_bracket bound here ?_
      (scan_close false) rfl
    intro tag member j earlier
    rcases List.mem_cons.mp member with rfl | member
    · exact noOpen j earlier
    · rw [List.mem_singleton.mp member]
      exact before j earlier
  · rename_i noOrphan
    cases start : find openTag buffer with
    | none =>
      have noClose : find closeTag buffer = none := by
        cases close : find closeTag buffer with
        | none => rfl
        | some i => rw [start, close] at noOrphan; exact absurd rfl noOrphan
      have clear : ∀ tag ∈ tagsOf false, ∀ j, ¬ tag <+: buffer.drop j := by
        intro tag member j
        rcases List.mem_cons.mp member with rfl | member
        · exact find_eq_none start j
        · rw [List.mem_singleton.mp member]
          exact find_eq_none noClose j
      dsimp only
      cases held : partialOutside buffer with
      | some lastBracket =>
        intro rest
        have found := rfind_of_partialOutside held
        rw [scan_before false rest (rfind_eq_some found).1 (head_of_rfind found)
          fun tag member j _ => clear tag member j, pieces_chunkOf]
        rfl
      | none =>
        intro rest
        rw [scan_all false buffer rest clear fun _ member _ => partialOutside_none held member, pieces_chunkOf]
        rfl
    | some i =>
      obtain ⟨bound, here, before⟩ := find_eq_some start
      refine reads_tag (p := ⟨buffer, false⟩) openTag_bracket bound here ?_
        scan_open rfl
      intro tag member j earlier
      rcases List.mem_cons.mp member with rfl | member
      · exact before j earlier
      · rw [List.mem_singleton.mp member]
        cases close : find closeTag buffer with
        | none => exact find_eq_none close j
        | some first =>
          rw [start, close] at noOrphan
          have order : ¬ first < i := fun less => noOrphan (decide_eq_true less)
          exact (find_eq_some close).2.2 j (by omega)

theorem parseInsideThink_reads (buffer : Str) :
    Reads ⟨buffer, true⟩ (parseInsideThink ⟨buffer, true⟩).1.toList (parseInsideThink ⟨buffer, true⟩).2 := by
  unfold parseInsideThink
  dsimp only
  cases close : find closeTag buffer with
  | none =>
    have clear : ∀ tag ∈ tagsOf true, ∀ j, ¬ tag <+: buffer.drop j := by
      intro tag member j
      rw [List.mem_singleton.mp member]
      exact find_eq_none close j
    dsimp only
    cases held : partialInside buffer with
    | some lastBracket =>
      intro rest
      have found := rfind_of_partialInside held
      rw [scan_before true rest (rfind_eq_some found).1 (head_of_rfind found)
        fun tag member j _ => clear tag member j, pieces_chunkOf]
      rfl
    | none =>
      intro rest
      rw [scan_all true buffer rest clear fun _ member _ => partialInside_none held member, pieces_chunkOf]
      rfl
  | some i =>
    obtain ⟨bound, here, before⟩ := find_eq_some close
    refine reads_tag (p := ⟨buffer, true⟩) closeTag_bracket bound here ?_
      (scan_close true) rfl
    intro tag member j earlier
    rw [List.mem_singleton.mp member]
    exact before j earlier

theorem parse_reads (p : ThinkTagParser) : Reads p p.parse.1.toList p.parse.2 := by
  obtain ⟨buffer, inThink⟩ := p
  cases inThink with
  | true => exact parseInsideThink_reads buffer
  | false => exact parseOutsideThink_reads buffer

/-- A round that yields a chunk or drops a tag shortens the buffer; any other leaves the parser as it is. -/
theorem parse_progress (p : ThinkTagParser) (waiting : p.buffer ≠ []) :
    p.parse.2.buffer.length < p.buffer.length ∨ p.parse = (none, p) := by
  obtain ⟨buffer, inThink⟩ := p
  have positive : 0 < buffer.length := List.length_pos_iff.mpr waiting
  have shorter (i : Nat) (moved : i ≠ 0) : (buffer.drop i).length < buffer.length := by
    rw [List.length_drop]
    omega
  have held (type : ContentType) (i : Nat) : (buffer.drop i).length < buffer.length ∨
      (chunkOf type (buffer.take i), (⟨buffer.drop i, inThink⟩ : ThinkTagParser)) = (none, ⟨buffer, inThink⟩) := by
    cases i with
    | zero => exact .inr rfl
    | succ i => exact .inl (shorter _ (by omega))
  cases inThink with
  | true =>
    simp only [parse, if_true, parseInsideThink]
    cases find closeTag buffer with
    | some i => exact .inl (shorter _ (by simp [closeTagLen]))
    | none =>
      cases partialInside buffer with
      | some i => exact held _ i
      | none => exact .inl positive
  | false =>
    simp only [parse, Bool.false_eq_true, if_false, parseOutsideThink]
    split
    · exact .inl (shorter _ (by simp [closeTagLen]))
    · cases find openTag buffer with
      | some i => exact .inl (shorter _ (by simp [openTagLen]))
      | none =>
        cases partialOutside buffer with
        | some i => exact held _ i
        | none => exact .inl positive

theorem Reads.trans {p middle last : ThinkTagParser} {first second : List ContentChunk} (one : Reads p first middle)
    (two : Reads middle second last) : Reads p (first ++ second) last := by
  intro rest
  rw [one rest, two rest, pieces, pieces, pieces, List.flatMap_append, List.append_assoc]

theorem feedLoop_reads (rounds : Nat) (p : ThinkTagParser) :
    Reads p (feedLoop rounds p).1 (feedLoop rounds p).2 := by
  induction rounds generalizing p with
  | zero => exact fun _ => rfl
  | succ rounds ih =>
    have here := parse_reads p
    rw [feedLoop]
    split
    · exact fun _ => rfl
    · cases parsed : p.parse with
      | mk chunk next =>
        rw [parsed] at here
        cases chunk with
        | some chunk => exact here.trans (ih next)
        | none =>
          dsimp only
          split
          · exact here
          · exact here.trans (ih next)

/-- The loop needs at most one round more than the buffer has characters. -/
theorem feedLoop_halted (rounds : Nat) (p : ThinkTagParser) (enough : p.buffer.length < rounds) :
    (feedLoop rounds p).2.Halted := by
  induction rounds generalizing p with
  | zero => omega
  | succ rounds ih =>
    rw [feedLoop]
    split
    · rename_i empty
      exact .inl empty
    · rename_i waiting
      have progress := parse_progress p waiting
      cases parsed : p.parse with
      | mk chunk next =>
        rw [parsed] at progress
        cases chunk with
        | some chunk =>
          rcases progress with shorter | same
          · exact ih next (by dsimp only at shorter; omega)
          · cases same
        | none =>
          dsimp only
          rcases progress with shorter | same
          · rw [if_neg (by dsimp only at shorter; omega)]
            exact ih next (by dsimp only at shorter; omega)
          · cases same
            rw [if_pos rfl]
            exact .inr parsed

theorem feed_halted (p : ThinkTagParser) (content : Str) : (p.feed content).2.Halted :=
  feedLoop_halted _ _ (Nat.lt_succ_self _)

theorem feed_reads (p : ThinkTagParser) (content : Str) :
    Reads { p with buffer := p.buffer ++ content } (p.feed content).1 (p.feed content).2 :=
  feedLoop_reads _ _

theorem feedAll_reads (p : ThinkTagParser) (contents : List Str) (rest : Str) :
    scan p.inThinkTag 0 (p.buffer ++ (contents.flatten ++ rest)) = pieces (p.feedAll contents).1 ++
      scan (p.feedAll contents).2.inThinkTag 0 ((p.feedAll contents).2.buffer ++ rest) := by
  induction contents generalizing p with
  | nil => rfl
  | cons content contents ih =>
    have here := feed_reads p content (contents.flatten ++ rest)
    have later := ih (p.feed content).2
    rw [List.flatten_cons]
    simp only [feedAll, pieces, List.flatMap_append, List.append_assoc]
    dsimp only [pieces] at here later
    rw [List.append_assoc] at here
    rw [here, later]

theorem feedAll_halted {p : ThinkTagParser} (halted : p.Halted) (contents : List Str) :
    (p.feedAll contents).2.Halted := by
  induction contents generalizing p with
  | nil => exact halted
  | cons content contents ih => exact ih (feed_halted p content)

theorem Halted.clear {p : ThinkTagParser} (halted : p.Halted) (waiting : p.buffer ≠ []) :
    ∀ tag ∈ tagsOf p.inThinkTag, ∀ j, ¬ tag <+: p.buffer.drop j := by
  obtain ⟨buffer, inThink⟩ := p
  rcases halted with empty | stuck
  · exact absurd empty waiting
  · have kept (i : Nat) (moved : i ≠ 0) : buffer.drop i ≠ buffer := by
      intro same
      have lengths := congrArg List.length same
      have positive : 0 < buffer.length := List.length_pos_iff.mpr waiting
      rw [List.length_drop] at lengths
      omega
    have buffers := congrArg (fun result => result.2.buffer) stuck
    intro tag member j
    cases inThink with
    | true =>
      rw [List.mem_singleton.mp member]
      simp only [parse, if_true, parseInsideThink] at buffers
      cases close : find closeTag buffer with
      | none => exact find_eq_none close j
      | some i =>
        rw [close] at buffers
        exact absurd buffers (kept _ (by simp [closeTagLen]))
    | false =>
      simp only [parse, Bool.false_eq_true, if_false, parseOutsideThink] at buffers
      split at buffers
      · exact absurd buffers (kept _ (by simp [closeTagLen]))
      · rename_i noOrphan
        cases start : find openTag buffer with
        | some i =>
          rw [start] at buffers
          exact absurd buffers (kept _ (by simp [openTagLen]))
        | none =>
          rcases List.mem_cons.mp member with rfl | member
          · exact find_eq_none start j
          · rw [List.mem_singleton.mp member]
            cases close : find closeTag buffer with
            | none => exact find_eq_none close j
            | some i =>
              rw [start, close] at noOrphan
              exact absurd rfl noOrphan

theorem flush_reads {p : ThinkTagParser} (halted : p.Halted) :
    scan p.inThinkTag 0 p.buffer = pieces p.flush.1.toList := by
  unfold flush
  split
  · rename_i empty
    rw [empty]
    rfl
  · rename_i waiting
    have clear := halted.clear waiting
    have read := scan_plain p.inThinkTag p.buffer [] fun i _ tag member => by
      rw [List.append_nil]
      exact clear tag member i
    rw [List.append_nil] at read
    rw [read]
    simp [scan, pieces, contentType]

/-- The typed characters of a fed and flushed text are those of the reference scan. -/
theorem feedThenFlush_pieces (contents : List Str) :
    pieces (new.feedThenFlush contents) = scan false 0 contents.flatten := by
  have fed := feedAll_reads new contents []
  have flushed := flush_reads (feedAll_halted (p := new) (.inl rfl) contents)
  rw [List.append_nil, List.append_nil] at fed
  have start : scan new.inThinkTag 0 (new.buffer ++ contents.flatten) = scan false 0 contents.flatten := rfl
  rw [← start, fed, flushed, feedThenFlush]
  simp only [pieces, List.flatMap_append]

theorem parse_nonempty (p : ThinkTagParser) : ∀ chunk ∈ p.parse.1.toList, chunk.content ≠ [] := by
  have kept (type : ContentType) (emit : Str) : ∀ chunk ∈ (chunkOf type emit).toList, chunk.content ≠ [] := by
    intro chunk member
    unfold chunkOf at member
    split at member
    · cases member
    · rename_i full
      rw [List.mem_singleton.mp member]
      exact full
  obtain ⟨buffer, inThink⟩ := p
  cases inThink with
  | true =>
    simp only [parse, if_true, parseInsideThink]
    split
    · split <;> exact kept _ _
    · exact kept _ _
  | false =>
    simp only [parse, Bool.false_eq_true, if_false, parseOutsideThink]
    split
    · exact kept _ _
    · split
      · split <;> exact kept _ _
      · exact kept _ _

theorem feedLoop_nonempty (rounds : Nat) (p : ThinkTagParser) :
    ∀ chunk ∈ (feedLoop rounds p).1, chunk.content ≠ [] := by
  induction rounds generalizing p with
  | zero => simp [feedLoop]
  | succ rounds ih =>
    have here := parse_nonempty p
    rw [feedLoop]
    split
    · simp
    · cases parsed : p.parse with
      | mk chunk next =>
        rw [parsed] at here
        cases chunk with
        | some chunk =>
          intro other member
          rcases List.mem_cons.mp member with rfl | member
          · exact here _ (by simp)
          · exact ih next other member
        | none =>
          dsimp only
          split
          · simp
          · exact ih next

theorem feedAll_nonempty (p : ThinkTagParser) (contents : List Str) :
    ∀ chunk ∈ (p.feedAll contents).1, chunk.content ≠ [] := by
  induction contents generalizing p with
  | nil => simp [feedAll]
  | cons content contents ih =>
    intro chunk member
    simp only [feedAll, List.mem_append] at member
    rcases member with here | later
    · exact feedLoop_nonempty _ _ chunk here
    · exact ih _ chunk later

theorem flush_nonempty (p : ThinkTagParser) : ∀ chunk ∈ p.flush.1, chunk.content ≠ [] := by
  intro chunk member
  unfold flush at member
  split at member
  · cases member
  · rename_i waiting
    cases member
    exact waiting

theorem feedThenFlush_nonempty (p : ThinkTagParser) (contents : List Str) :
    ∀ chunk ∈ p.feedThenFlush contents, chunk.content ≠ [] := by
  intro chunk member
  rcases List.mem_append.mp member with fed | flushed
  · exact feedAll_nonempty p contents chunk fed
  · exact flush_nonempty _ chunk (Option.mem_toList.mp flushed)

end ThinkTagParser

theorem mergeChunks_cons_congr (chunk : ContentChunk) {rest rest' : List ContentChunk}
    (same : mergeChunks rest = mergeChunks rest') : mergeChunks (chunk :: rest) = mergeChunks (chunk :: rest') := by
  rw [mergeChunks, mergeChunks, same]

/-- Cutting a piece into its characters does not change the merged list. -/
theorem mergeChunks_plain (type : ContentType) {s : Str} (full : s ≠ []) (rest : List ContentChunk) :
    mergeChunks (plain type s ++ rest) = mergeChunks (⟨type, s⟩ :: rest) := by
  induction s with
  | nil => exact absurd rfl full
  | cons c s ih =>
    cases s with
    | nil => rfl
    | cons d s =>
      have tail := ih (by simp)
      change mergeChunks (⟨type, [c]⟩ :: (plain type (d :: s) ++ rest)) = _
      rw [mergeChunks_cons_congr _ tail]
      simp only [mergeChunks]
      cases mergeChunks rest with
      | nil => simp
      | cons next more =>
        by_cases same : type = next.type <;> simp [same]

theorem mergeChunks_pieces {chunks : List ContentChunk} (full : ∀ chunk ∈ chunks, chunk.content ≠ []) :
    mergeChunks (pieces chunks) = mergeChunks chunks := by
  induction chunks with
  | nil => rfl
  | cons chunk rest ih =>
    have later := ih fun other member => full other (List.mem_cons_of_mem _ member)
    change mergeChunks (plain chunk.type chunk.content ++ pieces rest) = _
    rw [mergeChunks_plain chunk.type (full chunk List.mem_cons_self)]
    exact mergeChunks_cons_congr chunk later

/-- However a text is cut, feeding the pieces and flushing gives what the reference scan of the whole text
    gives, and the loop of every `feed` ends by itself. -/
theorem feed_eq_scan (contents : List Str) :
    mergeChunks (ThinkTagParser.new.feedThenFlush contents) = mergeChunks (scan false 0 contents.flatten) ∧
      ∀ (p : ThinkTagParser) (content : Str), (p.feed content).2.Halted := by
  refine ⟨?_, ThinkTagParser.feed_halted⟩
  rw [← ThinkTagParser.feedThenFlush_pieces]
  exact (mergeChunks_pieces (ThinkTagParser.feedThenFlush_nonempty _ _)).symm

example : ThinkTagParser.new.feedThenFlush ["a<th".toList, "ink>b</thin".toList] =
    [⟨.text, "a".toList⟩, ⟨.thinking, "b".toList⟩, ⟨.thinking, "</thin".toList⟩] := by decide

end ClaudeProxy.Providers
