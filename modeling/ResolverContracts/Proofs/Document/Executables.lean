import ResolverContracts.Proofs.Document.ExecutableGrammar
import ResolverContracts.Proofs.Document.Lines
/-!
# Operations and fragments in a schema text

An operation or a fragment is no part of a schema. It is reported at its first token, and what is
skipped then starts there and ends with the first block in braces (`Reader.skippedWith_executable`). That
block is meant to be the selection set at the end of the definition, but whatever has braces in front of
it comes first: an object in the default value of a variable or in the arguments of a directive. So a
definition costs one error and nothing else precisely if it has no brace in front of its selection set
(`Document.costsOneError_iff`). Otherwise the skipping ends with that object, and what is left behind it
is read as definitions: it gives at least one, or a fault (`Reader.definition_or_fault`).
-/

set_option autoImplicit false

namespace ResolverContracts

open Reader
open Lexeme (word keyword mark)

/-! ## What is skipped -/

/-- The cursor with one fault more. -/
def Cursor.withFault (c : Cursor) (fault : Fault) : Cursor := { c with faults := c.faults ++ [fault] }

namespace Reader

/-- Wherever these tokens stand ahead, no definition is read, this one fault is found, and the tokens are
passed. -/
def SkippedWith (fault : Fault) (ts : List Token) : Prop :=
  ∀ (c : Cursor) (later : List Token), c.ahead = ts ++ later →
    (readDefinition c).1.1 = none ∧ (c.withFault fault).Passes ts (readDefinition c).1.2

variable {c : Cursor} {o : Token} {description front block rest later : List Token}

/-- A string is taken for a description, and nothing else is. -/
theorem cursor_readDescription (c : Cursor) :
    (readDescription c).1.2 = if c.current.contents?.isSome then c.advance else c := by
  change (run readDescription c).2 = _
  have hlook : run current c = (c.current, c) := rfl
  rw [readDescription, run_bind, hlook]
  dsimp only
  cases c.current.contents? <;> rfl

/-- A description is passed. -/
theorem passes_readDescription {d : Option Description}
    (hdescription : DescriptionWritten d (description.map Token.lexeme))
    (ho : Avoids stringKinds o.kind) (hc : c.ahead = description ++ o :: later) :
    c.Passes description (readDescription c).1.2 := by
  rw [cursor_readDescription]
  generalize hrow : description.map Token.lexeme = row at hdescription
  cases hdescription with
  | absent =>
    obtain rfl := List.map_eq_nil_iff.mp hrow
    rw [Cursor.current_of_cons hc, contents?_eq_none ho]
    exact .refl c
  | present hstring =>
    obtain ⟨t, rfl, ht⟩ := List.map_eq_singleton_iff.mp hrow
    rw [Cursor.current_of_cons hc, hstring.contents ht]
    exact Cursor.passes_advance hc

/-- An executable definition is reported at its first token, and skipped from there on. -/
theorem readDefinition_of_executable (hkind : (readDescription c).1.2.kind ∈ executableKinds) :
    (readDefinition c).1 =
      (none, (skipBlock 0
        (skipTo .braceOpen ((readDescription c).1.2.report .executable)).1.2).1.2) := by
  change run readDefinition c = _
  have hread : run readDescription c = (readDescription c).1 := rfl
  have hlook (d : Cursor) : run current d = (d.current, d) := rfl
  rw [readDefinition, run_bind, run_bind, hread, hlook]
  generalize (readDescription c).1 = r at hkind ⊢
  have hcurrent : r.2.kind = r.2.current.kind := rfl
  rw [hcurrent] at hkind
  simp only [executableKinds, List.mem_cons, List.not_mem_nil, or_false] at hkind
  -- The other alternatives of the reader are for other kinds, so each of these runs into one branch.
  obtain hk | hk | hk | hk | hk := hkind <;> simp only [hk] <;> rfl

/-- **What an executable definition costs.** It is one fault at its first token, and what is skipped ends
with the first block of the definition. -/
theorem skippedWith_executable {d : Option Description} {inner : List Lexeme}
    (hdescription : DescriptionWritten d (description.map Token.lexeme))
    (hopener : front ++ block = o :: rest) (hkind : o.kind ∈ executableKinds)
    (hfront : ∀ t ∈ front, t.kind ≠ .punct .braceOpen)
    (hblock : block.map Token.lexeme = mark .braceOpen :: (inner ++ [mark .braceClose]))
    (hinner : Balanced inner) :
    SkippedWith ⟨.executable, o.kind, o.span⟩ (description ++ (front ++ block)) := by
  intro c later hc
  have havoids : ∀ k ∈ executableKinds, Avoids stringKinds k := by decide
  have hpast : c.ahead = description ++ o :: (rest ++ later) := by
    rw [hc, hopener, List.append_assoc]
    rfl
  have hdescribed := passes_readDescription hdescription (havoids _ hkind) hpast
  generalize he : (readDescription c).1.2 = e at hdescribed
  have hahead : e.ahead = o :: (rest ++ later) :=
    List.append_cancel_left (hdescribed.ahead.symm.trans hpast)
  have hcurrent : e.current = o := Cursor.current_of_cons hahead
  have hread := readDefinition_of_executable (c := c) (by rw [he, Cursor.kind, hcurrent]; exact hkind)
  rw [he] at hread
  rw [hread]
  refine ⟨rfl, ?_⟩
  -- The fault is found behind the description and in front of everything else.
  have hreported : (c.withFault ⟨.executable, o.kind, o.span⟩).Passes description
      (e.report .executable) := by
    refine ⟨hdescribed.ahead, hdescribed.taken, hdescribed.stop, ?_⟩
    rw [Cursor.report, Cursor.kind, hcurrent, hdescribed.faults]
    rfl
  obtain ⟨t, us, rfl, ht, -⟩ := List.map_eq_cons_iff.mp hblock
  have hsplit : (e.report .executable).ahead = front ++ t :: (us ++ later) := by
    change e.ahead = _
    rw [hahead, ← List.cons_append, ← hopener, List.append_assoc]
    rfl
  have hskipped := passes_skipTo hfront (congrArg Lexeme.kind ht) hsplit
  have hblockAhead := List.append_cancel_left (hskipped.ahead.symm.trans hsplit)
  exact hreported.trans (hskipped.trans (passes_skipBlock hinner hblock hblockAhead))

/-- The tokens of a definition up to the end of its first block are skipped in any text. -/
theorem exists_skipped {d : Option Description} {drow row front inner behind : List Lexeme}
    {ts : List Token} (hdescription : DescriptionWritten d drow)
    (hopener : StartsAs (· ∈ executableKinds) row)
    (hrow : row = front ++ (mark .braceOpen :: (inner ++ [mark .braceClose]) ++ behind))
    (hfront : ∀ l ∈ front, l.kind ≠ .punct .braceOpen) (hinner : Balanced inner)
    (hts : ts.map Token.lexeme = drow ++ row) :
    ∃ o ∈ ts, ∃ skipped left, ts = skipped ++ left ∧ skipped ≠ [] ∧
      left.map Token.lexeme = behind ∧ SkippedWith ⟨.executable, o.kind, o.span⟩ skipped := by
  subst hrow
  obtain ⟨l, more, hl, hkind⟩ := hopener
  obtain ⟨ds, rs, rfl, rfl, hrs⟩ := List.map_eq_append_iff.mp hts
  obtain ⟨fs, bs, rfl, rfl, hbs⟩ := List.map_eq_append_iff.mp hrs
  obtain ⟨block, left, rfl, hblock, rfl⟩ := List.map_eq_append_iff.mp hbs
  -- The first token behind the description, which belongs to what is skipped.
  obtain ⟨o, rest, ho⟩ : ∃ o rest, fs ++ block = o :: rest := by
    refine List.exists_cons_of_ne_nil fun hnil => ?_
    rw [(List.append_eq_nil_iff.mp hnil).2] at hblock
    exact absurd hblock (List.cons_ne_nil _ _).symm
  have hlexeme : o.lexeme = l := by
    have hall : (fs ++ block ++ left).map Token.lexeme = l :: more := by
      rw [← hl, ← hrs, List.append_assoc]
    rw [ho, List.cons_append, List.map_cons] at hall
    exact (List.cons.inj hall).1
  have hplain : ∀ t ∈ fs, t.kind ≠ .punct .braceOpen := fun t ht =>
    hfront t.lexeme (List.mem_map_of_mem ht)
  have hmem : o ∈ fs ++ block := by
    rw [ho]
    exact List.mem_cons_self
  refine ⟨o, ?_, ds ++ (fs ++ block), left, ?_, ?_, rfl, ?_⟩
  · rw [← List.append_assoc fs]
    exact List.mem_append_right _ (List.mem_append_left _ hmem)
  · simp only [List.append_assoc]
  · exact List.append_ne_nil_of_right_ne_nil _ (List.ne_nil_of_mem hmem)
  · subst hlexeme
    exact skippedWith_executable hdescription ho hkind hplain hblock hinner

/-- The loop over definitions goes on behind what is skipped. -/
theorem itemsUntil_of_skipped {fault : Fault} {skipped : List Token} (hscanned : c.Scanned)
    (hskipped : skipped ≠ []) (hskips : SkippedWith fault skipped) (hc : c.ahead = skipped ++ later) :
    (itemsUntil .endOfText readDefinition c).1 =
      (none :: (itemsUntil .endOfText readDefinition (readDefinition c).1.2).1.1,
        (itemsUntil .endOfText readDefinition (readDefinition c).1.2).1.2) := by
  obtain ⟨hnone, hpass⟩ := hskips c later hc
  have hahead : c.ahead = skipped ++ (readDefinition c).1.2.ahead := hpass.ahead
  have hend : ¬ c.atEndOf .endOfText = true := by
    intro hend
    have hnil : c.ahead = [] := List.map_eq_nil_iff.mp (hscanned.lexemes_eq_nil hend)
    exact hskipped (List.append_eq_nil_iff.mp (hc.symm.trans hnil)).1
  -- Tokens were taken, so the loop need not take one to get on.
  have hnext : pastItem c (readDefinition c).1.2 = (readDefinition c).1.2 := by
    have hpos := List.length_pos_iff.mpr hskipped
    have hlength := congrArg List.length hahead
    rw [List.length_append, ← Cursor.left_eq, ← Cursor.left_eq] at hlength
    exact if_pos (by omega)
  rw [itemsUntil_of_item hend, hnext, hnone]

/-- Something is made of tokens: a definition or a fault. -/
theorem definition_or_fault (hscanned : c.Scanned) (hahead : c.ahead ≠ []) :
    (itemsUntil .endOfText readDefinition c).1.1.filterMap id ≠ [] ∨
      c.faults.length < (itemsUntil .endOfText readDefinition c).1.2.faults.length := by
  have htakes := accounts_definitions c hscanned
  refine or_iff_not_imp_right.mpr fun hfew hnil => hahead ?_
  obtain ⟨ls, hls, hrow⟩ := htakes.row (htakes.grows.eq_of_length_le (Nat.le_of_not_lt hfew)).symm
  rw [hnil] at hrow
  cases hrow
  rw [lexemes_itemsUntil hscanned, List.append_nil] at hls
  exact List.map_eq_nil_iff.mp hls

end Reader

/-! ## Rows of tokens -/

/-- Nothing is made of no tokens. -/
theorem Parsed.ofLexed_nil (stop : Nat) : Parsed.ofLexed ⟨[], stop⟩ = ⟨⟨[], .emptyAt stop⟩, []⟩ := by
  let c := Cursor.start [] stop
  have hrun : (itemsUntil .endOfText readDefinition).run c = ([], c) := itemsUntil_of_end rfl
  simp only [Parsed.ofLexed, c, hrun]
  rfl

/-- Behind tokens that are skipped, a row of tokens is read as if it stood alone. -/
theorem Parsed.ofLexed_skipped {skipped : List Token} {last : Token} {second : Lexed} {n : Nat}
    {fault : Fault} (hlast : skipped.getLast? = some last) (hstop : last.span.stop ≤ n)
    (hscanned : ∀ l ∈ ((second.move (· + n)).behind skipped).lexemes, l.IsScanned)
    (hskips : SkippedWith fault skipped) :
    (Parsed.ofLexed ((second.move (· + n)).behind skipped)).document.definitions =
        (Parsed.ofLexed second).document.definitions.map (·.move (· + n)) ∧
      (Parsed.ofLexed ((second.move (· + n)).behind skipped)).faults =
        fault :: (Parsed.ofLexed second).faults.map (·.move (· + n)) := by
  let c := Cursor.start ((second.move (· + n)).behind skipped).tokens
    ((second.move (· + n)).behind skipped).stop
  let e := (readDefinition c).1.2
  let s : Surroundings := { Surroundings.shifted n second.stop with before := [fault] }
  have hc : c.Scanned := hscanned
  obtain ⟨-, hpass⟩ := hskips c _ rfl
  have hne : skipped ≠ [] := by
    rintro rfl
    cases hlast
  have hlastStop : e.lastStop = last.span.stop := by
    have htaken : e.taken = skipped.reverse ++ [] := hpass.taken
    rw [Cursor.lastStop, htaken, List.append_nil, List.head?_reverse, hlast]
    rfl
  -- Behind what is skipped stands what a run over the second row alone starts from.
  have hsecond : (Cursor.start second.tokens second.stop).Follows s e := by
    refine ⟨?_, hpass.stop, fun _ => rfl, ?_, hpass.faults⟩
    · exact (List.append_cancel_left hpass.ahead).symm.trans (List.append_nil _).symm
    · change max n e.lastStop = 0 + n
      omega
  obtain ⟨hanswer, hcursor⟩ := matches_itemsUntil .endOfText matches_readDefinition _ e hsecond
    (.inl trivial)
  have hrun := itemsUntil_of_skipped hc hne hskips rfl
  constructor
  · change (itemsUntil .endOfText readDefinition c).1.1.filterMap id = _
    rw [hrun, hanswer, List.filterMap_cons, filterMap_option_map]
    rfl
  · change (itemsUntil .endOfText readDefinition c).1.2.faults = _
    rw [hrun]
    exact hcursor.faults

/-- If tokens are left behind those that are skipped, something is made of them: a definition or one
fault more. -/
theorem Parsed.ofLexed_left {lexed : Lexed} {skipped left : List Token} {fault : Fault}
    (htokens : lexed.tokens = skipped ++ left) (hskipped : skipped ≠ []) (hleft : left ≠ [])
    (hscanned : ∀ l ∈ lexed.lexemes, l.IsScanned)
    (hskips : SkippedWith fault skipped) :
    (Parsed.ofLexed lexed).document.definitions ≠ [] ∨ 1 < (Parsed.ofLexed lexed).faults.length := by
  let c := Cursor.start lexed.tokens lexed.stop
  let e := (readDefinition c).1.2
  have hc : c.Scanned := hscanned
  obtain ⟨-, hpass⟩ := hskips c left htokens
  have hahead : e.ahead = left := List.append_cancel_left (hpass.ahead.symm.trans htokens)
  have hone : e.faults.length = 1 := congrArg List.length hpass.faults
  have hbehind := definition_or_fault (hc.of_suffix (readDefinition c).2) (hahead ▸ hleft)
  rw [hone] at hbehind
  have hrun := itemsUntil_of_skipped hc hskipped hskips htokens
  change (itemsUntil .endOfText readDefinition c).1.1.filterMap id ≠ [] ∨
    1 < (itemsUntil .endOfText readDefinition c).1.2.faults.length
  rw [hrun]
  exact hbehind

/-! ## Texts -/

/-- Reading the text costs one error, which is at one of its tokens, and nothing else: on the lines
behind it every text is read as if it stood alone, at the places it has there. -/
def Document.CostsOneError (text : String) : Prop :=
  ∃ t ∈ (Lexed.ofText text).tokens, ∀ more : String,
    (Document.parse (text ++ "\n" ++ more)).document.definitions =
        (Document.parse more).document.definitions.map (·.move (· + (byteLength text.toList + 1))) ∧
      (Document.parse (text ++ "\n" ++ more)).diagnostics.items =
        .error Code.invalidForm "executable definitions are not allowed in a schema"
            [⟨t.span, "operations and fragments belong in documents, not in the schema"⟩] ::
          ((Document.parse more).diagnostics.move (· + (byteLength text.toList + 1))).items

section Costs

variable {head body : List Lexeme} {text : String}

/-- What is skipped of an executable definition: all of it if there is no brace in front of its
selection set, and otherwise only a part. -/
theorem ExecutableWritten.exists_skipped (h : ExecutableWritten head body)
    (htext : (Lexed.ofText text).lexemes = head ++ body) :
    ∃ o ∈ (Lexed.ofText text).tokens, ∃ skipped left, (Lexed.ofText text).tokens = skipped ++ left ∧
      skipped ≠ [] ∧ (left = [] ↔ mark .braceOpen ∉ head) ∧
      SkippedWith ⟨.executable, o.kind, o.span⟩ skipped := by
  obtain ⟨d, description, front, inner, hdescription, rfl, hfront, rfl, hinner, hopener⟩ := h.parts
  have hts : (Lexed.ofText text).tokens.map Token.lexeme =
      description ++ (front ++ mark .braceOpen :: (inner ++ [mark .braceClose])) :=
    htext.trans (List.append_assoc _ _ _)
  obtain hplain | ⟨outer, object, behind, rfl, houter, hobject⟩ := hfront.first_block
  · obtain ⟨o, ho, skipped, left, hsplit, hne, hleft, hskips⟩ := Reader.exists_skipped hdescription
      hopener (by rw [List.append_nil]) hplain hinner hts
    refine ⟨o, ho, skipped, left, hsplit, hne, iff_of_true (List.map_eq_nil_iff.mp hleft) ?_, hskips⟩
    rw [List.mem_append, not_or]
    exact ⟨hdescription.mark_not_mem, fun hmem => hplain _ hmem rfl⟩
  · -- The block is an object in the head, and the rest of the head and the body are left.
    have hrow : outer ++ (mark .braceOpen :: (object ++ [mark .braceClose]) ++ behind) ++
          mark .braceOpen :: (inner ++ [mark .braceClose]) =
        outer ++ (mark .braceOpen :: (object ++ [mark .braceClose]) ++
          (behind ++ mark .braceOpen :: (inner ++ [mark .braceClose]))) := by
      simp only [List.append_assoc]
    obtain ⟨o, ho, skipped, left, hsplit, hne, hleft, hskips⟩ := Reader.exists_skipped hdescription
      hopener hrow houter hobject hts
    refine ⟨o, ho, skipped, left, hsplit, hne, iff_of_false ?_ (not_not_intro ?_), hskips⟩
    · rintro rfl
      simp at hleft
    · simp

/-- The last token of an executable definition is a closing brace. -/
theorem ExecutableWritten.exists_last (h : ExecutableWritten head body)
    (htext : (Lexed.ofText text).lexemes = head ++ body) :
    ∃ t, (Lexed.ofText text).tokens.getLast? = some t ∧ t.kind = .punct .braceClose := by
  obtain ⟨-, -, -, inner, -, -, -, rfl, -, -⟩ := h.parts
  have hlast : (Lexed.ofText text).lexemes.getLast? = some (mark .braceClose) := by
    rw [htext, ← List.cons_append, ← List.append_assoc, List.getLast?_concat]
  rw [Lexed.lexemes, List.getLast?_map] at hlast
  obtain ⟨t, ht, hmark⟩ := Option.map_eq_some_iff.mp hlast
  exact ⟨t, ht, congrArg Lexeme.kind hmark⟩

/-- Without a brace in front of its selection set, a definition is skipped as a whole. -/
theorem Document.costsOneError_of_not_mem (h : ExecutableWritten head body)
    (htext : (Lexed.ofText text).lexemes = head ++ body) (hhead : mark .braceOpen ∉ head) :
    CostsOneError text := by
  obtain ⟨o, ho, skipped, left, hsplit, -, hleft, hskips⟩ := h.exists_skipped htext
  obtain ⟨last, hlast, hbrace⟩ := h.exists_last htext
  obtain rfl := hleft.mpr hhead
  rw [List.append_nil] at hsplit
  refine ⟨o, ho, fun more => ?_⟩
  obtain ⟨hstop, hline⟩ := Lexed.ofText_line hlast hbrace more
  have hscanned := isScanned_lexemesFrom 0 (text ++ "\n" ++ more).toList
  change ∀ l ∈ (Lexed.ofText (text ++ "\n" ++ more)).lexemes, l.IsScanned at hscanned
  rw [hline, hsplit] at hscanned
  rw [hsplit] at hlast
  obtain ⟨hdefinitions, hfaults⟩ := Parsed.ofLexed_skipped (n := byteLength text.toList + 1)
    hlast (Nat.le_succ_of_le hstop) hscanned hskips
  rw [Document.parse, hline, hsplit]
  refine ⟨hdefinitions, ?_⟩
  rw [← Parsed.diagnostics_move]
  exact congrArg (List.map (·.toDiagnostic)) hfaults

/-- With a brace in front of its selection set, a definition is skipped up to the end of what that brace
opens, and the rest is taken for definitions. -/
theorem Document.not_costsOneError_of_mem (h : ExecutableWritten head body)
    (htext : (Lexed.ofText text).lexemes = head ++ body) (hhead : mark .braceOpen ∈ head) :
    ¬ CostsOneError text := by
  rintro ⟨t, -, hcosts⟩
  obtain ⟨o, -, skipped, left, hsplit, hskipped, hleft, hskips⟩ := h.exists_skipped htext
  obtain ⟨last, hlast, hbrace⟩ := h.exists_last htext
  -- It is enough to look at the definition with nothing on the line behind it.
  obtain ⟨hdefinitions, hdiagnostics⟩ := hcosts ""
  obtain ⟨-, hline⟩ := Lexed.ofText_line hlast hbrace ""
  have hempty : Lexed.ofText "" = ⟨[], 0⟩ := lexemesFrom_of_nil rfl 0
  have htokens : (Lexed.ofText (text ++ "\n" ++ "")).tokens = skipped ++ left := by
    rw [hline, hempty, hsplit]
    exact List.append_nil _
  have hparsed : Document.parse "" = ⟨⟨[], .emptyAt 0⟩, []⟩ := by
    rw [Document.parse, hempty, Parsed.ofLexed_nil]
  rw [hparsed] at hdefinitions hdiagnostics
  obtain hsome | hmany := Parsed.ofLexed_left htokens hskipped (mt hleft.mp (not_not_intro hhead))
    (isScanned_lexemesFrom 0 _) hskips
  · exact hsome hdefinitions
  · have hone := congrArg List.length hdiagnostics
    rw [Parsed.diagnostics, List.length_map] at hone
    exact absurd hmany (Nat.not_lt_of_le hone.le)

/-- **What an executable definition costs in a schema text.** It is one error and nothing else, whatever
stands on the lines behind it, precisely if there is no brace in front of its selection set. -/
theorem Document.costsOneError_iff (h : ExecutableWritten head body)
    (htext : (Lexed.ofText text).lexemes = head ++ body) :
    CostsOneError text ↔ mark .braceOpen ∉ head :=
  ⟨fun hcosts hhead => not_costsOneError_of_mem h htext hhead hcosts,
    costsOneError_of_not_mem h htext⟩

end Costs

/-! ## A query with a default value -/

/-- The head of a query with one variable, which has a default value. -/
def queryHead (value : List Lexeme) : List Lexeme :=
  word "query" :: word "Q" :: mark .parenOpen :: mark .dollar :: word "v" :: mark .colon ::
    word "T" :: mark .equals :: (value ++ [mark .parenClose])

/-- The selection of one field. -/
def oneSelection : List Lexeme := [mark .braceOpen, word "x", mark .braceClose]

theorem queryHead_written {value : List Lexeme} (h : Executable.Written .value value) :
    ExecutableWritten (queryHead value) oneSelection := by
  have hvariable : Executable.Written (.several .parameter) ([] ++ mark .dollar :: word "v" ::
      mark .colon :: ([word "T"] ++ (mark .equals :: value ++ [])) ++ []) :=
    .cons (.parameter "v" .absent (.named ⟨"T", .emptyAt 0⟩) (.default h) .nil) .nil
  have hfield : Executable.Written (.several .selection) ([] ++ word "x" :: ([] ++ ([] ++ [])) ++ []) :=
    .cons (.field "x" .noLabel .noArguments .nil .noSubselection) .nil
  have hquery := ExecutableWritten.operation .absent .query (.title "Q") (.parameters hvariable) .nil
    (.selectionSet hfield)
  simpa [queryHead, oneSelection, Operation.keyword] using hquery

/-- The query is cut into its tokens where spaces separate them. -/
theorem queryHead_lexemes {value : List Lexeme} (h : ∀ l ∈ value, l.IsSpelled) :
    (Lexed.ofText (spacedText (queryHead value ++ oneSelection))).lexemes =
      queryHead value ++ oneSelection := by
  refine lexemes_spacedText ?_
  simp only [queryHead, oneSelection, List.cons_append, List.append_assoc, List.forall_mem_cons,
    List.forall_mem_append, Lexeme.isSpelled_mark, true_and]
  have hname {text : String} (htext : isWord text = true) : (word text).IsSpelled :=
    Lexeme.isSpelled_word htext
  have hnil := List.forall_mem_nil Lexeme.IsSpelled
  exact ⟨hname rfl, hname rfl, hname rfl, hname rfl, h, hnil, hname rfl, hnil⟩

theorem isSpelled_one : Lexeme.IsSpelled ⟨.int, "1"⟩ :=
  .int .none (@WholePart.digits '1' [] (by decide) (by decide) (List.forall_mem_nil _))

/-- A number is no object, so the query costs one error. -/
theorem Document.costsOneError_iff_number :
    ExecutableWritten (queryHead [⟨.int, "1"⟩]) oneSelection ∧
      (Lexed.ofText " query Q ( $ v : T = 1 ) \x7b x \x7d").lexemes =
        queryHead [⟨.int, "1"⟩] ++ oneSelection ∧
      CostsOneError " query Q ( $ v : T = 1 ) \x7b x \x7d" := by
  have hwritten := queryHead_written (.literal (l := ⟨.int, "1"⟩) (by decide))
  have htext := queryHead_lexemes (List.forall_mem_singleton.mpr isSpelled_one)
  exact ⟨hwritten, htext, (costsOneError_iff hwritten htext).mpr (by decide)⟩

/-- An object is in braces, so the query costs more: what stands behind the object is taken for
definitions. -/
theorem Document.not_costsOneError_object :
    ∃ head body, ExecutableWritten head body ∧
      (Lexed.ofText " query Q ( $ v : T = \x7b a : 1 \x7d ) \x7b x \x7d").lexemes = head ++ body ∧
      ¬ CostsOneError " query Q ( $ v : T = \x7b a : 1 \x7d ) \x7b x \x7d" := by
  let value : List Lexeme := [mark .braceOpen, word "a", mark .colon, ⟨.int, "1"⟩, mark .braceClose]
  have hone : Executable.Written .value [⟨.int, "1"⟩] := .literal (by decide)
  have hvalue : Executable.Written .value value := .object (.cons (.pair "a" hone) .nil)
  have hspelled : ∀ l ∈ value, l.IsSpelled := by
    simp only [value, List.forall_mem_cons, Lexeme.isSpelled_mark, true_and]
    exact ⟨Lexeme.isSpelled_word rfl, isSpelled_one, List.forall_mem_nil _⟩
  have hwritten := queryHead_written hvalue
  have htext := queryHead_lexemes hspelled
  exact ⟨_, _, hwritten, htext, not_costsOneError_of_mem hwritten htext (by decide)⟩

end ResolverContracts
