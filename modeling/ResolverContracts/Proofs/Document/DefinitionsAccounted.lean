import ResolverContracts.Proofs.Document.PartsAccounted
import ResolverContracts.Proofs.Document.RoundTrip
/-!
# Definitions, accounted for

The readers of directives, members and definitions, put together from those of their parts. Each takes
a writing of its answer, or it finds a fault; the readers that answer nothing always find one.

At the end stands what this says of whole texts: without a fault, all tokens write the document
(`Parsed.written_of_ofLexed`).
-/

set_option autoImplicit false

namespace ResolverContracts

open Reader
open Lexeme (word keyword mark)

/-! ## Directives -/

theorem StartsAs.ne_nil {S : TokenKind → Prop} {ls : List Lexeme} (h : StartsAs S ls) : ls ≠ [] := by
  obtain ⟨l, more, rfl, -⟩ := h
  exact List.cons_ne_nil l more

theorem accounts_readArgument : readArgument.Accounts Argument.Written := by
  refine .peek accounts_place fun start => .token accounts_readName fun name => ?_
  refine .token (accounts_expect_mark .colon) fun _ => .last accounts_readValue fun value => ?_
  exact .spanned fun span => ⟨rfl, fun ls hls => .parts hls⟩

theorem accounts_readDirectives : readDirectives.Accounts (Row Directive.Written) := by
  refine accounts_eachAfter fun start => .token accounts_readName fun name => ?_
  refine .last (accounts_optionalItems accounts_readArgument nofun) fun arguments => ?_
  exact .spanned fun span => ⟨rfl, fun ls hls => .parts hls⟩

/-! ## Fields, arguments and enum values -/

/-- A default, if there is one, and what stands behind it. -/
theorem accounts_default {β : Type} {next : Option Value → Reader β} {W : β → List Lexeme → Prop}
    (hnext : ∀ v, (next v).Accounts fun b more => ∀ ls, DefaultWritten v ls → W b (ls ++ more)) :
    Accounts (do
      let default ← if ← eat (.punct .equals) then some <$> (readValue : Reader Value) else pure none
      next default) W := by
  refine .choice (accounts_eat_mark .equals) ?_ ?_
  · refine .bind (.mapSome accounts_readValue) fun o => (hnext o).imp ?_
    rintro b more hb ls ⟨v, rfl, hv⟩
    exact hb _ (.present hv)
  · exact (hnext none).imp fun b more hb => hb [] .absent

theorem accounts_readInputDefinition : readInputDefinition.Accounts InputDefinition.Written := by
  refine .bind accounts_readDescription fun description => .peek accounts_place fun start => ?_
  refine .token accounts_readName fun name => .token (accounts_expect_mark .colon) fun _ => ?_
  refine .bind accounts_readType fun type => accounts_default fun default => ?_
  refine .last accounts_readDirectives fun directives => .spanned fun span => ⟨rfl, ?_⟩
  intro ds hds vs hvs ts hts us hus
  exact .parts hus hts hvs hds

theorem accounts_readArgumentDefinitions : readArgumentDefinitions.Accounts ArgumentsWritten :=
  accounts_optionalItems accounts_readInputDefinition fun _ h => h.opensMember.ne_nil rfl

theorem accounts_readFieldDefinition : readFieldDefinition.Accounts FieldDefinition.Written := by
  refine .bind accounts_readDescription fun description => .peek accounts_place fun start => ?_
  refine .token accounts_readName fun name => .bind accounts_readArgumentDefinitions fun args => ?_
  refine .token (accounts_expect_mark .colon) fun _ => .bind accounts_readType fun type => ?_
  refine .last accounts_readDirectives fun directives => .spanned fun span => ⟨rfl, ?_⟩
  intro ds hds ts hts as has us hus
  exact .parts hus has hts hds

/-- A value that is called like a constant costs a fault. -/
theorem accounts_readEnumValue : readEnumValue.Accounts EnumValueDefinition.Written := by
  refine .bind accounts_readDescription fun description => .peek accounts_place fun start => ?_
  refine .look fun c hc => ?_
  have hvalue (hkind : ∀ k ∈ constantKeywords, c.kind ≠ .keyword k) :
      Step.Accounts ((do
        let name ← readName
        let directives ← readDirectives
        return EnumValueDefinition.mk description name directives (← spanFrom start) : Reader _) c)
        fun d more => ∀ ls, DescriptionWritten description ls → d.Written (ls ++ more) := by
    refine Accounts.andThen hc (accounts_readName_of_ne hc hkind) fun name => ?_
    refine .last accounts_readDirectives fun directives => .spanned fun span => ⟨rfl, ?_⟩
    rintro ds hds _ ⟨rfl, hname⟩ us hus
    exact .parts hus hname hds
  have hkind : c.kind = c.current.kind := rfl
  -- The constants are words too, so they are told apart by their kind in front of the name.
  cases hk : c.current.kind with
  | keyword k =>
    by_cases hconstant : k ∈ constantKeywords
    · have hreported : ∀ {W : EnumValueDefinition → List Lexeme → Prop},
          Step.Accounts ((do
            complain .constantAsEnumValue
            let name ← readName
            let directives ← readDirectives
            return EnumValueDefinition.mk description name directives (← spanFrom start) :
              Reader _) c) W :=
        Accounts.reportedAt hc _ <| .bind accounts_readName fun name =>
          .bind accounts_readDirectives fun directives => .spanned fun span _ _ _ _ => trivial
      cases k <;> first | exact hreported | simp [constantKeywords] at hconstant
    · have hplain := hvalue fun j hj heq => hconstant (by simp_all)
      cases k <;> first | exact hplain | simp [constantKeywords] at hconstant
  | _ => exact hvalue fun k _ => by simp [hkind, hk]

theorem accounts_listed {opener : Lexeme} {kind : TokenKind} {p : Punctuator}
    (hopener : (eat kind).Accounts fun found ls => ls = if found then [opener] else []) :
    Accounts (do if ← eat kind then separated p readName else return []) (Listed opener p) := by
  refine .choice hopener ?_ (.pure .absent)
  exact (accounts_separated accounts_readName).imp fun names ls hls => .present hls

theorem accounts_readImplements : readImplements.Accounts (Listed (keyword .implements) .ampersand) :=
  accounts_listed (accounts_eat_keyword .implements)

theorem accounts_readMembers : readMembers.Accounts (Listed (mark .equals) .pipe) :=
  accounts_listed (accounts_eat_mark .equals)

/-! ## Type definitions -/

section TypeDefinitions

variable {description : Option Description} {start : Nat} {k : Keyword}

/-- The row completes a type definition whose description was read before. -/
def CompletesType (description : Option Description) (o : Option TypeDefinition) (ls : List Lexeme) :
    Prop :=
  ∃ d, o = some d ∧ d.description = description ∧
    ∀ us, DescriptionWritten description us → d.Written (us ++ ls)

/-- A type definition whose parts were read one by one, the keyword first. -/
theorem completesType {d : TypeDefinition} (hdescription : d.description = description)
    (hkeyword : d.body.kind.keyword = k.text) {implements directives members : List Lexeme}
    (himplements : Listed (keyword .implements) .ampersand d.body.implementsNames implements)
    (hdirectives : Row Directive.Written d.directives directives)
    (hmembers : d.body.MembersWritten members) :
    CompletesType description (some d)
      (keyword k :: word d.name.text :: (implements ++ (directives ++ members))) := by
  refine ⟨d, rfl, hdescription, fun us hus => ?_⟩
  rw [← Lexeme.word_text, ← hkeyword]
  exact .parts (hdescription ▸ hus) himplements hdirectives hmembers

theorem accounts_readFieldedType {body : List Name → List FieldDefinition → TypeBody}
    (hkeyword : ∀ ns fs, (body ns fs).kind.keyword = k.text)
    (himplements : ∀ ns fs, (body ns fs).implementsNames = ns)
    (hmembers : ∀ ns fs ls, Bracketed .braceOpen .braceClose FieldDefinition.Written fs ls →
      (body ns fs).MembersWritten ls) :
    Accounts (some <$> readFieldedType description start body)
      fun o ls => CompletesType description o (keyword k :: ls) := by
  refine .map (.token accounts_readName fun name => .bind accounts_readImplements fun ns => ?_)
  refine .bind accounts_readDirectives fun ds => ?_
  refine .last (accounts_optionalItems accounts_readFieldDefinition fun _ h => h.opensMember.ne_nil rfl)
    fun fs => .spanned fun span => ⟨rfl, ?_⟩
  intro members hfs directives hds implements hns
  exact completesType rfl (hkeyword ns fs) ((himplements ns fs).symm ▸ hns) hds (hmembers ns fs _ hfs)

theorem accounts_readPlainType {body : Reader TypeBody}
    (hbody : body.Accounts fun b ls =>
      b.kind.keyword = k.text ∧ b.implementsNames = [] ∧ b.MembersWritten ls) :
    Accounts (some <$> readPlainType description start body)
      fun o ls => CompletesType description o (keyword k :: ls) := by
  refine .map (.token accounts_readName fun name => .bind accounts_readDirectives fun ds => ?_)
  refine .last hbody fun b => .spanned fun span => ⟨rfl, ?_⟩
  rintro members ⟨hkeyword, hnone, hmembers⟩ directives hds
  have himplements : Listed (keyword .implements) .ampersand b.implementsNames [] :=
    hnone.symm ▸ .absent
  exact completesType (d := ⟨_, _, _, b, _⟩) rfl hkeyword himplements hds hmembers

/-- A type definition behind its description, with one case for each keyword. -/
theorem accounts_readTypeDefinition :
    (readTypeDefinition description).Accounts (CompletesType description) := by
  refine .look fun c hc => ?_
  have hkind : c.kind = c.current.kind := rfl
  cases hk : c.current.kind with
  | keyword k =>
    rw [hk] at hkind
    have hend : c.kind ≠ .endOfText := by simp [hkind]
    have htaken {next : Reader (Option TypeDefinition)}
        (h : next.Accounts fun o ls => CompletesType description o (keyword k :: ls)) :
        Step.Accounts ((do advance; next : Reader _) c) (CompletesType description) :=
      Accounts.taken hc hend (by rwa [hc.current_eq_keyword hkind])
    -- The keyword is taken with the body behind it, since both are parts of the same writing.
    cases k
    case type => exact htaken (accounts_readFieldedType (fun _ _ => rfl) (fun _ _ => rfl) fun _ _ _ h => h)
    case interface =>
      exact htaken (accounts_readFieldedType (fun _ _ => rfl) (fun _ _ => rfl) fun _ _ _ h => h)
    case union =>
      exact htaken (accounts_readPlainType (.map (accounts_readMembers.imp fun ns ls h => ⟨rfl, rfl, h⟩)))
    case enum =>
      refine htaken (accounts_readPlainType (.map ?_))
      exact (accounts_optionalItems accounts_readEnumValue fun _ h => h.opensMember.ne_nil rfl).imp
        fun vs ls h => ⟨rfl, rfl, h⟩
    case input =>
      refine htaken (accounts_readPlainType (.map ?_))
      exact (accounts_optionalItems accounts_readInputDefinition fun _ h => h.opensMember.ne_nil rfl).imp
        fun fs ls h => ⟨rfl, rfl, h⟩
    case scalar => exact htaken (accounts_readPlainType (.pure ⟨rfl, rfl, rfl⟩))
    all_goals exact Accounts.reportedAt hc _ (.pure trivial)
  | _ => exact Accounts.reportedAt hc _ (.pure trivial)

end TypeDefinitions

/-! ## Schema blocks -/

/-- The three operations are keywords, so a binding is written with the word that was seen. -/
theorem keyword_of_operation? {k : TokenKind} {o : Operation} (h : k.operation? = some o) :
    ∃ w : Keyword, k = .keyword w ∧ keyword w = word o.keyword := by
  unfold TokenKind.operation? at h
  split at h
  · obtain rfl := Option.some.inj h
    exact ⟨.query, rfl, (Lexeme.word_text .query).symm⟩
  · obtain rfl := Option.some.inj h
    exact ⟨.mutation, rfl, (Lexeme.word_text .mutation).symm⟩
  · obtain rfl := Option.some.inj h
    exact ⟨.subscription, rfl, (Lexeme.word_text .subscription).symm⟩
  · exact nomatch h

theorem accounts_readRootBinding :
    readRootBinding.Accounts fun o ls => ∃ b, o = some b ∧ b.Written ls := by
  refine .look fun c hc => ?_
  cases ho : c.current.kind.operation? with
  | none => exact Accounts.reportedAt hc _ (.pure trivial)
  | some operation =>
    obtain ⟨k, hkind, hword⟩ := keyword_of_operation? ho
    have hlexeme : c.current.lexeme = word operation.keyword :=
      (hc.current_eq_keyword hkind).trans hword
    refine Accounts.taken hc (by change c.current.kind ≠ _; simp [hkind]) ?_
    rw [hlexeme]
    refine .token (accounts_expect_mark .colon) fun _ => .token accounts_readName fun type => ?_
    exact .spanned fun span => ⟨_, rfl, .parts⟩

/-- A schema block from its keyword on. -/
theorem accounts_readSchemaDefinition {description : Option Description} {start : Nat} {c : Cursor}
    (hc : c.Scanned) (hkind : c.kind = .keyword .schema) :
    (readSchemaDefinition description start c).Accounts fun d ls =>
      d.description = description ∧ ∀ us, DescriptionWritten description us → d.Written (us ++ ls) := by
  refine Accounts.taken hc (by simp [hkind]) ?_
  rw [hc.current_eq_keyword hkind]
  refine .bind accounts_readDirectives fun ds => ?_
  refine .last (accounts_optionalItems accounts_readRootBinding ?_) fun os => .spanned fun span => ?_
  · rintro o ⟨b, -, hb⟩
    cases hb
  · refine ⟨rfl, fun operations hos directives hds => ⟨rfl, fun us hus => ?_⟩⟩
    exact .parts hus hds (bracketed_filterMap hos)

/-! ## Directive definitions -/

theorem isWord_location (l : Location) : isWord l.text = true := by cases l <;> decide

/-- A token that reads as a place is the word for it. -/
theorem lexeme_of_location {c : Cursor} (hc : c.Scanned) {l : Location}
    (h : c.ahead.head?.bind (Location.ofText? ·.text) = some l) :
    c.kind ≠ .endOfText ∧ c.current.lexeme = word l.text := by
  obtain ⟨t, ht, hl⟩ := Option.bind_eq_some_iff.mp h
  have hcurrent : c.current = t := by simp [Cursor.current, List.headD_eq_head?_getD, ht]
  have htext : l.text = t.text := by simpa using List.find?_some hl
  have hscanned : t.lexeme.IsScanned :=
    hc _ (List.mem_map_of_mem (List.mem_of_mem_head? ht))
  have hword : t.lexeme = word l.text := by
    rw [htext]
    exact hscanned.eq_word_of_isWord (by rw [Token.lexeme, ← htext]; exact isWord_location l)
  have hkind : c.kind = t.lexeme.kind := congrArg Token.kind hcurrent
  exact ⟨by rw [hkind]; exact hscanned.kind_ne_endOfText, by rw [hcurrent, hword]⟩

/-- Places from the first word on, with a mark between each two. -/
inductive PlacesWritten : List Location → List Lexeme → Prop
  | row {l : Location} {rest : List Location} {more : List Lexeme}
      (hrest : Row (fun y us => us = [mark .pipe, word y.text]) rest more) :
      PlacesWritten (l :: rest) (word l.text :: more)

theorem PlacesWritten.behind {ls : List Location} {more : List Lexeme} (h : PlacesWritten ls more)
    (l : Location) : PlacesWritten (l :: ls) (word l.text :: mark .pipe :: more) := by
  obtain @⟨first, rest, more, hrest⟩ := h
  exact .row (.cons (x := first) (W := fun y us => us = [mark .pipe, word y.text]) rfl hrest)

/-- The places of a directive, perhaps behind a mark. -/
theorem PlacesWritten.separated {ls : List Location} {more : List Lexeme} (h : PlacesWritten ls more)
    (front : Bool) :
    Separated .pipe Location.text ls ((if front then [mark .pipe] else []) ++ more) := by
  obtain ⟨hrest⟩ := h
  cases front with
  | true => exact .behindMark hrest
  | false => exact .plain hrest

/-- The word for a place, and the mark behind it if there is one. -/
theorem takes_location {c : Cursor} (hc : c.Scanned) {l : Location}
    (h : c.ahead.head?.bind (Location.ofText? ·.text) = some l) :
    ((eat (.punct .pipe) c.advance).since c.advance_ahead_suffix : Step c Bool).Accounts
      fun found ls => ls = word l.text :: if found then [mark .pipe] else [] := by
  obtain ⟨hend, hword⟩ := lexeme_of_location hc h
  refine (Cursor.takes_advance hend).trans
    (accounts_eat_mark .pipe c.advance (hc.of_suffix c.advance_ahead_suffix)) ?_
  rintro _ _ rfl rfl
  rw [hword]
  rfl

/-- A word that is no location is a fault, and ends the list. -/
theorem accounts_readLocations : Accounts readLocations PlacesWritten := by
  intro c hc
  fun_induction readLocations c with
  | case1 c hnone => exact Accounts.reportedAt hc _ (.pure trivial)
  | case2 c l hl hb hlt found hfound hyes rest ih =>
    refine Cursor.Takes.trans (takes_location hc hl) (ih (hc.of_suffix found.2)) ?_
    rintro _ more rfl hrest
    change PlacesWritten _ ((word l.text :: if found.1.1 then [mark .pipe] else []) ++ more)
    rw [if_pos hyes]
    exact hrest.behind l
  | case3 c l hl hb hlt found hfound hno =>
    refine Cursor.Takes.imp (takes_location hc hl) ?_
    rintro _ rfl
    change PlacesWritten _ (word l.text :: if found.1.1 then [mark .pipe] else [])
    rw [if_neg hno]
    exact .row .nil

theorem repeatableWritten (found : Bool) :
    RepeatableWritten found (if found then [keyword .repeatable] else []) := by
  cases found with
  | true => exact .present
  | false => exact .absent

/-- A directive definition from its keyword on. -/
theorem accounts_readDirectiveDefinition {description : Option Description} {c : Cursor}
    (hc : c.Scanned) (hkind : c.kind = .keyword .directive) :
    (readDirectiveDefinition description c).Accounts fun d ls =>
      ∀ us, DescriptionWritten description us → d.Written (us ++ ls) := by
  refine Accounts.placed (Accounts.taken hc (by simp [hkind]) ?_)
  rw [hc.current_eq_keyword hkind]
  refine .token (accounts_expect_mark .atSign) fun _ => .token accounts_readName fun name => ?_
  refine .bind accounts_readArgumentDefinitions fun arguments => ?_
  refine .exactly (accounts_eat_keyword .repeatable) fun repeatable => ?_
  refine .token (accounts_expect (accounts_eat_keyword .on)) fun _ => ?_
  refine .exactly (accounts_eat_mark .pipe) fun front => .last accounts_readLocations fun locations => ?_
  refine .spanned fun span => ⟨rfl, ?_⟩
  intro ls hlocations as has us hus
  exact .parts hus has (repeatableWritten repeatable) (hlocations.separated front)

/-! ## Definitions -/

/-- The row writes a definition, and there is one. -/
def WritesDefinition (o : Option Definition) (ls : List Lexeme) : Prop := ∃ d, o = some d ∧ d.Written ls

theorem not_writesDefinition_nil (o : Option Definition) : ¬ WritesDefinition o [] := by
  rintro ⟨d, -, hd⟩
  exact hd.startsAs.ne_nil rfl

/-- The word `extend` was taken before, so the writing has it in front. -/
theorem accounts_readExtension (start : Nat) :
    (readExtension start).Accounts fun o ls => WritesDefinition o (keyword .extend :: ls) := by
  refine .look fun c hc => ?_
  by_cases hk : c.current.kind = .keyword .schema
  · rw [if_pos hk]
    refine Accounts.andThen hc (accounts_readSchemaDefinition hc hk) fun d => .pure ?_
    rintro ls ⟨hplain, hd⟩
    exact ⟨_, rfl, .schemaExtension hplain (by simpa using hd [] .absent)⟩
  · rw [if_neg hk]
    refine Accounts.bind accounts_readTypeDefinition (fun o => .pure ?_) c hc
    rintro ls ⟨d, rfl, hplain, hd⟩
    exact ⟨_, rfl, .typeExtension hplain (by simpa using hd [] .absent)⟩

/-- Skipping reports nothing. It comes behind a fault, so what is skipped need not be accounted for. -/
theorem accounts_skipTo (p : Punctuator) : Accounts (skipTo p) fun _ _ => True := by
  intro c hc
  fun_induction skipTo p c with
  | case1 c hend => exact .none rfl rfl trivial
  | case2 c hend hb hlt ih =>
    exact (accounts_advance c hc).trans (ih (hc.of_suffix c.advance_ahead_suffix)) fun _ _ _ _ => trivial

theorem accounts_skipBlock (depth : Nat) : Accounts (skipBlock depth) fun _ _ => True := by
  intro c hc
  fun_induction skipBlock depth c with
  | case1 depth c hb => exact .none rfl rfl trivial
  | case2 depth c hb deeper hzero => exact accounts_advance c hc
  | case3 depth c hb deeper hdeeper hlt ih =>
    exact (accounts_advance c hc).trans (ih (hc.of_suffix c.advance_ahead_suffix)) fun _ _ _ _ => trivial

/-- Operations and fragments are skipped at the cost of a fault. -/
theorem accounts_executable {c : Cursor} (hc : c.Scanned) {W : Option Definition → List Lexeme → Prop} :
    Step.Accounts ((do
      report .executable
      (skipTo .braceOpen : Reader Unit)
      (skipBlock 0 : Reader Unit)
      return none : Reader (Option Definition)) c) W :=
  Accounts.reportedAt hc _ <| .bind (accounts_skipTo .braceOpen) fun _ =>
    .bind (accounts_skipBlock 0) fun _ => .pure fun _ _ _ _ => trivial

/-- An extension has no description, unless it costs a fault. -/
theorem accounts_extend {description : Option Description} {c : Cursor} (hc : c.Scanned)
    (hkind : c.kind = .keyword .extend) (start : Nat) :
    Step.Accounts ((do
      if description.isSome then report .describedExtension
      advance
      readExtension start : Reader (Option Definition)) c)
      fun o ls => ∀ us, DescriptionWritten description us → WritesDefinition o (us ++ ls) := by
  cases description with
  | none =>
    refine Accounts.taken hc (by simp [hkind]) ((accounts_readExtension start).imp ?_)
    rw [hc.current_eq_keyword hkind]
    intro o ls h us hus
    rwa [hus.eq_nil]
  | some d =>
    exact Accounts.reportedAt hc _ <| .bind accounts_advance fun _ =>
      (accounts_readExtension start).imp fun _ _ _ _ _ => trivial

/-- A definition. Whatever starts none costs a fault, and so does an operation or a fragment. -/
theorem accounts_readDefinition : readDefinition.Accounts WritesDefinition := by
  refine .bind accounts_readDescription fun description => .look fun c hc => ?_
  have hkind : c.kind = c.current.kind := rfl
  have hnone {W : Option Definition → List Lexeme → Prop} :
      Step.Accounts ((do complain .definition; return none : Reader (Option Definition)) c) W :=
    Accounts.reportedAt hc _ (.pure trivial)
  cases hk : c.current.kind with
  | keyword k =>
    rw [hk] at hkind
    have htype : Step.Accounts ((do return (← readTypeDefinition description).map .type :
        Reader (Option Definition)) c)
        fun o ls => ∀ us, DescriptionWritten description us → WritesDefinition o (us ++ ls) := by
      refine Accounts.bind accounts_readTypeDefinition (fun o => .pure ?_) c hc
      rintro ls ⟨d, rfl, -, hd⟩ us hus
      exact ⟨_, rfl, .type (by simpa using hd us hus)⟩
    cases k
    case schema =>
      refine Accounts.andThen hc (accounts_readSchemaDefinition hc hkind) fun d => .pure ?_
      rintro ls ⟨-, hd⟩ us hus
      exact ⟨_, rfl, .schema (by simpa using hd us hus)⟩
    case directive =>
      refine Accounts.andThen hc (accounts_readDirectiveDefinition hc hkind) fun d => .pure ?_
      intro ls hd us hus
      exact ⟨_, rfl, .directive (by simpa using hd us hus)⟩
    case extend => exact accounts_extend hc hkind _
    all_goals first | exact htype | exact accounts_executable hc | exact hnone
  | punct p => cases p <;> first | exact accounts_executable hc | exact hnone
  | _ => exact hnone

/-! ## Documents -/

/-- The definitions of a text, without what was read where there is none. -/
theorem accounts_definitions : (itemsUntil .endOfText readDefinition).Accounts
    fun os ls => Row Definition.Written (os.filterMap id) ls :=
  (accounts_itemsUntil accounts_readDefinition not_writesDefinition_nil).imp
    fun _ _ hrow => row_filterMap hrow

/-- What is read of a text without a fault is written by all the tokens of the text. -/
theorem Parsed.written_of_ofLexed {lexed : Lexed} (hscanned : ∀ l ∈ lexed.lexemes, l.IsScanned)
    (h : (Parsed.ofLexed lexed).faults = []) :
    (Parsed.ofLexed lexed).document.Written lexed.lexemes := by
  let start := Cursor.start lexed.tokens lexed.stop
  have hstart : start.Scanned := hscanned
  obtain ⟨ls, hls, hrow⟩ := (accounts_definitions start hstart).row h
  -- The loop over definitions goes on to the end of the text.
  rw [lexemes_itemsUntil hstart, List.append_nil] at hls
  change Row Definition.Written _ start.lexemes
  rw [hls]
  exact hrow

end ResolverContracts
