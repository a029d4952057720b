import ResolverContracts.Proofs.Document.Advances
import ResolverContracts.Proofs.Document.DefinitionsAccounted
/-!
# How often the readers take the end of a text

Reader by reader, how often the end of a text may be taken. Only the readers of constants take it, and
with them those of arguments that end with a constant (`uses_readValue`, `uses_readArgument`,
`uses_readInputDefinition`). These are items in brackets, so the loops around them end there. A
definition takes the end of the text at most once, and not where it starts (`uses_readDefinition`).
-/

set_option autoImplicit false

namespace ResolverContracts

open Reader

/-! ## Names, types and constants -/

/-- Where a name is missing, the current token stands in for it and is not taken. -/
theorem uses_readName : readName.Uses .never := by
  intro c
  unfold readName
  rw [current_bind]
  by_cases h : c.current.kind.isName = true
  · rw [if_pos h]
    have hc : c.ahead ≠ [] := Cursor.ahead_ne_nil_of_kind (kind_ne_endOfText_of_isName h)
    exact Cursor.Uses.advance_of_ne hc
  · rw [if_neg h]
    exact .report _

theorem uses_readDescription : readDescription.Uses .never := by
  intro c
  unfold readDescription
  rw [current_bind]
  cases hcontents : c.current.contents? with
  | none => exact .refl
  | some text =>
    refine Cursor.Uses.advance_of_ne (Cursor.ahead_ne_nil_of_kind fun hend => ?_)
    rw [Cursor.kind] at hend
    simp [Token.contents?, hend] at hcontents

theorem uses_closeType (start : Nat) (type : TypeNode) : (closeType start type).Uses .never := by
  refine (uses_eat_mark .bang).behind_never fun _ => .ite ?_ .pure
  exact (uses_spanFrom start).behind_never fun _ => .pure

/-- What stands in brackets is read behind the bracket. -/
theorem uses_readType : Uses readType .never := by
  intro c
  fun_induction readType c with
  | case1 c start hk hlt ih =>
    have hb : c.ahead ≠ [] := Cursor.ahead_ne_nil_of_punct hk
    have hitem : c.Uses (readType c.advance).1.2 .never :=
      (Cursor.Uses.advance_of_ne hb).trans_of_never ih
    refine Uses.andThen_never hitem fun item => (uses_expect_mark _).behind_never fun _ => ?_
    exact (uses_spanFrom start).behind_never fun _ => uses_closeType start _
  | case2 c start hk =>
    exact Uses.andThen_never (uses_readName c) fun name => uses_closeType start _

theorem uses_takeValue (start : Nat) (value : Span → Value) : (takeValue start value).Uses .once :=
  uses_advance.bind fun _ => (uses_spanFrom start).behind_never fun _ => .pure

theorem uses_readInt (start : Nat) : (readInt start).Uses .once := by
  refine uses_current.behind_never fun token => ?_
  cases int64OfLiteral? token.text with
  | some n => exact uses_takeValue start _
  | none => exact (uses_report _).behind_never fun _ => uses_takeValue start _

theorem uses_enumName : (do return Value.enum (← readName) : Reader Value).Uses .once :=
  uses_readName.behind_never fun _ => .pure

/-- A variable is refused, and its mark is taken so that the name behind it can be. -/
theorem uses_readVariable : readVariable.Uses .once := by
  refine (uses_report _).behind_never fun _ => uses_advance.bind fun _ => ?_
  exact uses_readName.behind_never fun _ => .pure

/-- What is no constant is reported and taken in the place of one. This is where the end of a text can
be taken. -/
theorem uses_readNoValue (start : Nat) : (readNoValue start).Uses .once :=
  (uses_report _).behind_never fun _ => uses_takeValue start _

theorem uses_readScalarValue : readScalarValue.Uses .once := by
  refine uses_current.behind_never fun token => ?_
  split
  · exact uses_readInt _
  · exact uses_takeValue _ _
  · exact uses_takeValue _ _
  · exact uses_takeValue _ _
  · exact uses_takeValue _ _
  · exact uses_takeValue _ _
  · exact uses_takeValue _ _
  · exact uses_readVariable
  · exact uses_enumName
  · exact uses_enumName
  · exact uses_readNoValue _

theorem uses_readKey : readKey.Uses .never :=
  uses_readName.behind_never fun _ => (uses_expect_mark .colon).behind_never fun _ => .pure

/-- A row in brackets, up to the closing one. -/
theorem uses_closed {α β : Type} {close : Punctuator} {c : Cursor} (hc : c.ahead ≠ [])
    {items : Step c.advance (List α)} (hitems : items.Uses .fromInside) {start : Nat}
    {f : List α → Span → β} :
    ((items.since c.advance_ahead_suffix : Step c (List α)).andThen fun xs => do
      expect (.punct close)
      return f xs (← spanFrom start)).Uses .once := by
  have hrow : c.Uses items.1.2 .fromInside := (Cursor.Uses.advance_of_ne hc).trans_of_never hitems
  have honce : Step.Uses (items.since c.advance_ahead_suffix : Step c (List α)) .once := hrow.once
  refine Uses.andThen honce fun xs => ?_
  exact (uses_expect_mark close).behind_never fun _ => (uses_spanFrom start).behind_never fun _ => .pure

/-- A constant that is missing may be the end of the text. The induction is on the tokens ahead. -/
theorem uses_readValue : Uses readValue .once := by
  intro c
  induction hlength : c.ahead.length using Nat.strong_induction_on generalizing c with
  | _ n ih =>
    rw [readValue]
    by_cases hl : c.kind = .punct .bracketOpen
    · rw [dif_pos hl]
      refine uses_closed (Cursor.ahead_ne_nil_of_punct hl) (uses_itemsBelow (fun d hd => ?_) _ _)
      exact ih d.ahead.length (by rwa [← hlength, ← c.left_eq]) d rfl
    rw [dif_neg hl]
    by_cases ho : c.kind = .punct .braceOpen
    · rw [dif_pos ho]
      refine uses_closed (Cursor.ahead_ne_nil_of_punct ho) (uses_itemsBelow (fun d hd => ?_) _ _)
      -- The key never takes the end of the text, so what counts is the constant behind it.
      have hvalue := ih (readKey d).1.2.ahead.length
        (Nat.lt_of_le_of_lt (readKey d).2.length_le (by rwa [← hlength, ← c.left_eq]))
        (readKey d).1.2 rfl
      exact (uses_readKey d).trans_of_never hvalue
    · rw [dif_neg ho]
      exact uses_readScalarValue c

/-! ## Directives and members -/

/-- An argument ends with its constant, and takes the end of the text as that does. -/
theorem uses_readArgument : readArgument.Uses .once := by
  refine uses_place.behind_never fun start => uses_readName.behind_never fun name => ?_
  refine (uses_expect_mark .colon).behind_never fun _ => uses_readValue.bind fun value => ?_
  exact (uses_spanFrom start).behind_never fun _ => .pure

/-- Arguments are items in brackets, and a directive begins with its mark; so directives are never
asked for at the end of the text. -/
theorem uses_readDirectives : readDirectives.Uses .fromInside := by
  refine uses_eachAfter nofun fun start => uses_readName.behind_never fun name => ?_
  refine (uses_optionalItems uses_readArgument).bind fun arguments => ?_
  exact (uses_spanFrom start).behind_never fun _ => .pure

/-- The end of a definition with directives. -/
theorem uses_directives_spanned {α : Type} {start : Nat} {f : List Directive → Span → α} :
    (do
      let directives ← readDirectives
      return f directives (← spanFrom start) : Reader α).Uses .fromInside :=
  uses_readDirectives.bind fun _ => (uses_spanFrom start).behind_never fun _ => .pure

/-- The default may be what is missing at the end of the text; nothing is taken behind it. -/
theorem uses_readInputDefinition : readInputDefinition.Uses .once := by
  refine uses_readDescription.behind_never fun description => ?_
  refine uses_place.behind_never fun start => uses_readName.behind_never fun name => ?_
  refine (uses_expect_mark .colon).behind_never fun _ => uses_readType.behind_never fun type => ?_
  refine (uses_eat_mark .equals).behind_never fun found => .ite ?_ ?_
  · refine Uses.bind (uses_readValue.map (f := some)) fun default => ?_
    exact uses_directives_spanned
  · exact Uses.behind_never .pure fun default => Uses.once uses_directives_spanned

theorem uses_readArgumentDefinitions : readArgumentDefinitions.Uses .fromInside :=
  uses_optionalItems uses_readInputDefinition

/-- The arguments of a field may use up the text. What stands behind them then finds nothing and takes
nothing. -/
theorem uses_readFieldDefinition : readFieldDefinition.Uses .fromInside := by
  refine uses_readDescription.behind_never fun description => ?_
  refine uses_place.behind_never fun start => uses_readName.behind_never fun name => ?_
  refine uses_readArgumentDefinitions.bind fun arguments => ?_
  refine (uses_expect_mark .colon).behind_never fun _ => uses_readType.behind_never fun type => ?_
  exact uses_directives_spanned

theorem uses_readEnumValue : readEnumValue.Uses .fromInside := by
  refine uses_readDescription.behind_never fun description => uses_place.behind_never fun start => ?_
  refine uses_current.behind_never fun token => ?_
  have hname : (do
      let name ← readName
      let directives ← readDirectives
      return ⟨description, name, directives, ← spanFrom start⟩ :
        Reader EnumValueDefinition).Uses .fromInside :=
    uses_readName.behind_never fun name => uses_directives_spanned
  split
  · exact (uses_report _).behind_never fun _ => hname
  · exact (uses_report _).behind_never fun _ => hname
  · exact (uses_report _).behind_never fun _ => hname
  · exact hname

theorem uses_readImplements : readImplements.Uses .never :=
  (uses_eat_keyword .implements).behind_never fun _ => .ite (uses_separated uses_readName) .pure

theorem uses_readMembers : readMembers.Uses .never :=
  (uses_eat_mark .equals).behind_never fun _ => .ite (uses_separated uses_readName) .pure

/-! ## Definitions -/

theorem uses_readFieldedType (description : Option Description) (start : Nat)
    (body : List Name → List FieldDefinition → TypeBody) :
    (readFieldedType description start body).Uses .fromInside := by
  refine uses_readName.behind_never fun name => uses_readImplements.behind_never fun interfaces => ?_
  refine uses_readDirectives.bind fun directives => ?_
  refine (uses_optionalItems uses_readFieldDefinition.once).bind fun fields => ?_
  exact (uses_spanFrom start).behind_never fun _ => .pure

theorem uses_readPlainType (description : Option Description) (start : Nat) {body : Reader TypeBody}
    (hbody : body.Uses .fromInside) : (readPlainType description start body).Uses .fromInside := by
  refine uses_readName.behind_never fun name => uses_readDirectives.bind fun directives => ?_
  refine hbody.bind fun body => ?_
  exact (uses_spanFrom start).behind_never fun _ => .pure

/-- Behind a token that is there. -/
theorem uses_taken {α : Type} {c : Cursor} (hc : c.current.kind ≠ .endOfText) {next : Reader α}
    (hnext : next.Uses .fromInside) : Step.Uses ((advance >>= fun _ => next) c) .fromInside := by
  have hahead : c.ahead ≠ [] := Cursor.ahead_ne_nil_of_kind hc
  exact (Cursor.Uses.advance_of_ne hahead).trans_of_never (hnext _)

theorem uses_readTypeDefinition (description : Option Description) :
    (readTypeDefinition description).Uses .fromInside := by
  intro c
  unfold readTypeDefinition
  rw [current_bind]
  have hnone : Step.Uses ((do complain .typeDefinition; return none :
      Reader (Option TypeDefinition)) c) .fromInside :=
    (uses_report _).behind_never (fun _ => .pure) c
  -- Whatever the keyword is, it is a token that is there; the body behind it keeps to the bound.
  cases hk : c.current.kind with
  | keyword k =>
    have htaken {r : Reader TypeDefinition} (hr : r.Uses .fromInside) :
        Step.Uses ((advance >>= fun _ => some <$> r) c) .fromInside :=
      uses_taken (by simp [hk]) hr.map
    cases k
    case type => exact htaken (uses_readFieldedType description _ _)
    case interface => exact htaken (uses_readFieldedType description _ _)
    case union => exact htaken (uses_readPlainType description _ uses_readMembers.fromInside.map)
    case enum =>
      exact htaken (uses_readPlainType description _ (uses_optionalItems uses_readEnumValue.once).map)
    case input =>
      exact htaken (uses_readPlainType description _ (uses_optionalItems uses_readInputDefinition).map)
    case scalar => exact htaken (uses_readPlainType description _ .pure)
    all_goals exact hnone
  | _ => exact hnone

/-- A binding begins with its operation; anything else is reported, and left to the loop to skip. -/
theorem uses_readRootBinding : readRootBinding.Uses .fromInside := by
  intro c
  unfold readRootBinding
  rw [current_bind]
  cases hoperation : c.current.kind.operation? with
  | none => exact (uses_report _).behind_never (fun _ => .pure) c
  | some operation =>
    have hc : c.current.kind ≠ .endOfText := by
      intro hend
      simp [hend, TokenKind.operation?] at hoperation
    refine uses_taken hc ((uses_expect_mark .colon).behind_never fun _ => ?_)
    exact uses_readName.behind_never fun type => (uses_spanFrom _).behind_never fun _ => .pure

/-- The reader takes its first token unseen, so the bound is narrowed only where a keyword is known to
stand there. -/
theorem uses_readSchemaDefinition (description : Option Description) (start : Nat) :
    (readSchemaDefinition description start).Uses .once := by
  refine uses_advance.bind fun _ => uses_readDirectives.bind fun directives => ?_
  refine (uses_optionalItems uses_readRootBinding.once).bind fun operations => ?_
  exact (uses_spanFrom start).behind_never fun _ => .pure

/-- A location that is unknown ends the list, and is not taken. -/
theorem uses_readLocations : Uses readLocations .never := by
  intro c
  fun_induction readLocations c with
  | case1 c hc => exact Uses.andThen_never (uses_report _ c) fun _ => .pure
  | case2 c location hc hb hlt mark hlt' hmark rest ih =>
    have hlocation : c.Uses mark.1.2 .never :=
      (Cursor.Uses.advance_of_ne hb).trans_of_never (uses_eat_mark .pipe c.advance)
    exact hlocation.trans_of_never ih
  | case3 c location hc hb hlt mark hlt' hmark =>
    exact (Cursor.Uses.advance_of_ne hb).trans_of_never (uses_eat_mark .pipe c.advance)

theorem uses_readDirectiveDefinition (description : Option Description) :
    (readDirectiveDefinition description).Uses .once := by
  refine uses_place.behind_never fun start => uses_advance.bind fun _ => ?_
  refine (uses_expect_mark .atSign).behind_never fun _ => uses_readName.behind_never fun name => ?_
  refine uses_readArgumentDefinitions.bind fun arguments => ?_
  refine (uses_eat_keyword .repeatable).behind_never fun repeatable => ?_
  refine (uses_expect_keyword .on).behind_never fun _ => ?_
  refine (uses_eat_mark .pipe).behind_never fun _ => uses_readLocations.behind_never fun locations => ?_
  exact (uses_spanFrom start).behind_never fun _ => .pure

theorem uses_readExtension (start : Nat) : (readExtension start).Uses .fromInside := by
  intro c
  unfold readExtension
  rw [current_bind]
  by_cases hk : c.current.kind = .keyword .schema
  · rw [if_pos hk]
    have hc : c.ahead ≠ [] := Cursor.ahead_ne_nil_of_kind (by simp [Cursor.kind, hk])
    have hschema : Step.Uses (readSchemaDefinition none start c) .fromInside :=
      (uses_readSchemaDefinition none start c).of_once hc
    exact Uses.andThen hschema fun _ => .pure
  · rw [if_neg hk]
    exact Uses.andThen (uses_readTypeDefinition none c) fun _ => .pure

theorem uses_extend (description : Option Description) {c : Cursor}
    (hc : c.current.kind ≠ .endOfText) (start : Nat) :
    Step.Uses ((do
      if description.isSome then report .describedExtension
      advance
      readExtension start : Reader (Option Definition)) c) .fromInside := by
  cases description with
  | none => exact uses_taken hc (uses_readExtension start)
  | some d =>
    have hreport : c.Uses (c.report .describedExtension) .never := .report _
    exact hreport.trans_of_never (uses_taken (c := c.report .describedExtension) hc
      (uses_readExtension start))

/-- What is skipped is there. -/
theorem uses_executable : (do
    report .executable
    (skipTo .braceOpen : Reader Unit)
    (skipBlock 0 : Reader Unit)
    return none : Reader (Option Definition)).Uses .fromInside :=
  (uses_report _).behind_never fun _ => (uses_skipTo .braceOpen).behind_never fun _ =>
    (uses_skipBlock 0).behind_never fun _ => .pure

/-- A definition. One that takes the end of the text has started in front of it. -/
theorem uses_readDefinition : readDefinition.Uses .fromInside := by
  refine uses_readDescription.behind_never fun description => ?_
  intro c
  rw [current_bind]
  have hnone : Step.Uses ((do complain .definition; return none : Reader (Option Definition)) c)
      .fromInside := (uses_report _).behind_never (fun _ => .pure) c
  cases hk : c.current.kind with
  | keyword k =>
    have hc : c.ahead ≠ [] := Cursor.ahead_ne_nil_of_kind (by simp [Cursor.kind, hk])
    have htype : Step.Uses ((do return (← readTypeDefinition description).map .type :
        Reader (Option Definition)) c) .fromInside :=
      Uses.andThen (uses_readTypeDefinition description c) fun _ => .pure
    cases k
    -- The readers of schemas and of directives take what stands where they start; here it is a keyword.
    case schema =>
      have hschema := (uses_readSchemaDefinition description c.current.span.start c).of_once hc
      exact Uses.andThen hschema fun _ => .pure
    case directive =>
      have hdirective := (uses_readDirectiveDefinition description c).of_once hc
      exact Uses.andThen hdirective fun _ => .pure
    case extend => exact uses_extend description (by simp [hk]) _
    all_goals first | exact htype | exact uses_executable c | exact hnone
  | punct p => cases p <;> first | exact uses_executable c | exact hnone
  | _ => exact hnone

end ResolverContracts
