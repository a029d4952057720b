import ResolverContracts.Proofs.Document.Follows
/-!
# Readers inside a larger text

Every reader goes along with itself in a larger text, down to the places in its answer. The proofs
follow the readers line by line: a reader that was given a place or a part of a document is matched
with the reader that was given the same thing moved.

For a whole text this says that reading commutes with moving (`Parsed.ofLexed_move`): places are
carried through, and nothing is decided by them.
-/

set_option autoImplicit false

namespace ResolverContracts

open Reader

variable {s : Surroundings}

/-! ## Names and descriptions -/

theorem matches_readName : readName.Matches s (·.move s.place) readName := by
  refine .bind matches_current fun t => ?_
  by_cases hname : t.kind.isName = true
  · have hname' : (t.move s.place).kind.isName = true := hname
    rw [if_pos hname, if_pos hname']
    exact .behind matches_advance fun _ => .pure rfl
  · have hname' : ¬ (t.move s.place).kind.isName = true := hname
    rw [if_neg hname, if_neg hname']
    exact .behind (matches_report _) fun _ => .pure rfl

theorem contents?_move (t : Token) : (t.move s.place).contents? = t.contents? := rfl

theorem matches_readDescription :
    readDescription.Matches s (Option.map (·.move s.place)) readDescription := by
  refine .bind matches_current fun t => ?_
  rw [contents?_move]
  cases t.contents? with
  | some text => exact .behind matches_advance fun _ => .pure rfl
  | none => exact .pure rfl

/-! ## Types -/

/-- The mark behind a type makes a new node, which starts where the type does. -/
theorem matches_closeType (start : Nat) (type : TypeNode) :
    (closeType start type).Matches s (·.move s.place)
      (closeType (s.place start) (type.move s.place)) := by
  refine .behind (matches_eat _) fun found => .ite (fun _ => ?_) fun _ => .pure rfl
  exact .spanned fun _ => rfl

/-- The induction is that of the reader, over the brackets around a type. -/
theorem matches_readType : Matches s (·.move s.place) readType readType := by
  intro c d hcd hsees
  fun_induction readType c generalizing d with
  | case1 c start hk hlt ih =>
    -- The bracket is a token of the smaller text, so it is seen in both.
    have hc : c.Sees s := .inr (Cursor.ahead_ne_nil_of_punct hk)
    have hk' : d.kind = .punct .bracketOpen := by rwa [hcd.kind hc]
    have hstart : d.current.span.start = s.place start := by rw [hcd.current hc]; rfl
    rw [readType.eq_def d, dif_pos hk', hstart]
    refine Matches.andThen (g := (·.move s.place)) (fun hitem => ?_) (fun item => ?_) hsees
    · exact (ih d.advance (hcd.advance hc) hitem).since _ _
    · refine .behind (matches_expect _) fun _ => .bind (matches_spanFrom start) fun span => ?_
      exact matches_closeType start _
  | case2 c start hk =>
    -- A name may be missing, so here the token is seen because what stands behind the type is.
    have hc : c.Sees s :=
      hsees.of_suffix ((readName c).andThen fun name => closeType start (.named name)).2
    have hk' : ¬ d.kind = .punct .bracketOpen := by rwa [hcd.kind hc]
    have hstart : d.current.span.start = s.place start := by rw [hcd.current hc]; rfl
    rw [readType.eq_def d, dif_neg hk', hstart]
    exact Matches.andThen (matches_readName c d hcd) (fun name => matches_closeType start _) hsees

/-! ## Constants -/

/-- Constants that are one token differ in the node that is made of it. Each of these nodes is moved by
its span. -/
theorem matches_takeValue {start : Nat} {value value' : Span → Value}
    (h : ∀ span, value' (span.move s.place) = (value span).move s.place) :
    (takeValue start value).Matches s (·.move s.place) (takeValue (s.place start) value') :=
  .behind matches_advance fun _ => .spanned h

theorem matches_readInt (start : Nat) :
    (readInt start).Matches s (·.move s.place) (readInt (s.place start)) := by
  refine .bind matches_current fun t => ?_
  rw [Token.text_move]
  cases int64OfLiteral? t.text with
  | some n => exact matches_takeValue fun _ => rfl
  | none => exact .behind (matches_report _) fun _ => matches_takeValue fun _ => rfl

theorem matches_readVariable : readVariable.Matches s (·.move s.place) readVariable := by
  refine .behind (matches_report _) fun _ => .behind matches_advance fun _ => ?_
  exact .bind matches_readName fun _ => .pure rfl

theorem matches_enumName :
    Matches s (·.move s.place) (do return Value.enum (← readName))
      (do return Value.enum (← readName)) :=
  .bind matches_readName fun _ => .pure rfl

theorem matches_readScalarValue : readScalarValue.Matches s (·.move s.place) readScalarValue := by
  refine .bind matches_current fun t => ?_
  obtain ⟨kind, text, span⟩ := t
  have hnone : (readNoValue span.start).Matches s (·.move s.place) (readNoValue (s.place span.start)) :=
    .behind (matches_report _) fun _ => matches_takeValue fun _ => rfl
  cases kind with
  | int => exact matches_readInt span.start
  | float | string | blockString => exact matches_takeValue fun _ => rfl
  | name => exact matches_enumName
  | keyword k => cases k <;> first | exact matches_enumName | exact matches_takeValue fun _ => rfl
  | punct p => cases p <;> first | exact matches_readVariable | exact hnone
  | endOfText | stray => exact hnone

theorem matches_readKey : readKey.Matches s (·.move s.place) readKey :=
  .bind matches_readName fun _ => .behind (matches_expect _) fun _ => .pure rfl

/-- Constants. The induction is on the tokens ahead: what stands in brackets has fewer. -/
theorem matches_readValue : Matches s (·.move s.place) readValue readValue := by
  intro c d hcd hsees
  induction hlength : c.ahead.length using Nat.strongRecOn generalizing c d with
  | ind n ih =>
    have hc : c.Sees s := hsees.of_suffix (readValue c).2
    have hstart : d.current.span.start = s.place c.current.span.start := by rw [hcd.current hc]; rfl
    have hadvance : c.advance.Follows s d.advance := hcd.advance hc
    have hkind (p : Punctuator) : d.kind = .punct p ↔ c.kind = .punct p := by rw [hcd.kind hc]
    rw [readValue.eq_def c] at hsees ⊢
    rw [readValue.eq_def d, hstart]
    by_cases hl : c.kind = .punct .bracketOpen
    · rw [dif_pos hl] at hsees ⊢
      rw [dif_pos ((hkind _).mpr hl)]
      refine Matches.andThen (g := (·.map (·.move s.place))) (fun hitems => ?_) (fun items => ?_) hsees
      · refine .since (itemsBelow_follows (fun e he e' _ hee hsees' => ?_) _ _ _ _ hadvance hitems) _ _
        exact ih e.ahead.length (by rwa [← hlength, ← c.left_eq]) e e' hee hsees' rfl
      · refine .behind (matches_expect _) fun _ => .spanned fun _ => ?_
        rw [Value.move, Value.moveItems_eq]
    rw [dif_neg hl] at hsees ⊢
    rw [dif_neg (mt (hkind _).mp hl)]
    by_cases ho : c.kind = .punct .braceOpen
    · rw [dif_pos ho] at hsees ⊢
      rw [dif_pos ((hkind _).mpr ho)]
      refine Matches.andThen (g := (·.map (Value.moveField s.place))) (fun hfields => ?_)
        (fun fields => ?_) hsees
      · refine .since (itemsBelow_follows (fun e he e' _ hee hsees' => ?_) _ _ _ _ hadvance hfields) _ _
        -- The constant stands behind the key, where there are not more tokens ahead.
        obtain ⟨hkey, hbehind⟩ := matches_readKey e e' hee
          (Cursor.Sees.of_suffix hsees' (readValue (readKey e).1.2).2)
        obtain ⟨hvalue, hcursor⟩ := ih (readKey e).1.2.ahead.length
          (Nat.lt_of_le_of_lt (readKey e).2.length_le (by rwa [← hlength, ← c.left_eq]))
          (readKey e).1.2 (readKey e').1.2 hbehind hsees' rfl
        exact ⟨Prod.ext hkey hvalue, hcursor⟩
      · refine .behind (matches_expect _) fun _ => .spanned fun _ => ?_
        rw [Value.move, Value.moveFields_eq]
    · rw [dif_neg ho] at hsees ⊢
      rw [dif_neg (mt (hkind _).mp ho)]
      exact matches_readScalarValue c d hcd hsees

/-! ## Directives, fields and arguments -/

theorem matches_readArgument : readArgument.Matches s (·.move s.place) readArgument := by
  refine .bind matches_place fun start => .bind matches_readName fun name => ?_
  refine .behind (matches_expect _) fun _ => .bind matches_readValue fun value => ?_
  exact .spanned fun _ => rfl

theorem matches_optionalItems {α β : Type} {g : α → β} {item : Reader α} {item' : Reader β}
    (opening closing : Punctuator) (hitem : item.Matches s g item') :
    (optionalItems opening closing item).Matches s (·.map g) (optionalItems opening closing item') := by
  refine .behind (matches_eat _) fun found => .ite (fun _ => ?_) fun _ => .pure rfl
  exact matches_itemsIn closing hitem

/-- A directive starts at its mark, which is what the loop over them keeps the place of. -/
theorem matches_readDirectives :
    readDirectives.Matches s (·.map (·.move s.place)) readDirectives := by
  refine matches_eachAfter _ fun start => .bind matches_readName fun name => ?_
  refine .bind (matches_optionalItems _ _ matches_readArgument) fun arguments => ?_
  exact .spanned fun _ => rfl

/-- A default, if there is one, and what stands behind it. -/
theorem matches_default {γ δ : Type} {h : γ → δ} {next : Option Value → Reader γ}
    {next' : Option Value → Reader δ}
    (hnext : ∀ v, (next v).Matches s h (next' (v.map (·.move s.place)))) :
    Matches s h (do
      let default ← if ← eat (.punct .equals) then some <$> (readValue : Reader Value) else pure none
      next default) (do
      let default ← if ← eat (.punct .equals) then some <$> (readValue : Reader Value) else pure none
      next' default) := by
  refine .behind (matches_eat _) fun found => .ite (fun _ => ?_) fun _ => hnext none
  exact .bind (.map matches_readValue fun _ => rfl) hnext

theorem matches_readInputDefinition :
    readInputDefinition.Matches s (·.move s.place) readInputDefinition := by
  refine .bind matches_readDescription fun description => .bind matches_place fun start => ?_
  refine .bind matches_readName fun name => .behind (matches_expect _) fun _ => ?_
  refine .bind matches_readType fun type => matches_default fun default => ?_
  exact .bind matches_readDirectives fun directives => .spanned fun _ => rfl

theorem matches_readArgumentDefinitions :
    readArgumentDefinitions.Matches s (·.map (·.move s.place)) readArgumentDefinitions :=
  matches_optionalItems _ _ matches_readInputDefinition

theorem matches_readFieldDefinition :
    readFieldDefinition.Matches s (·.move s.place) readFieldDefinition := by
  refine .bind matches_readDescription fun description => .bind matches_place fun start => ?_
  refine .bind matches_readName fun name => .bind matches_readArgumentDefinitions fun arguments => ?_
  refine .behind (matches_expect _) fun _ => .bind matches_readType fun type => ?_
  exact .bind matches_readDirectives fun directives => .spanned fun _ => rfl

theorem matches_readEnumValue : readEnumValue.Matches s (·.move s.place) readEnumValue := by
  refine .bind matches_readDescription fun description => .bind matches_place fun start => ?_
  have hvalue : Matches s (·.move s.place) (do
      let name ← readName
      let directives ← readDirectives
      return EnumValueDefinition.mk description name directives (← spanFrom start)) (do
      let name ← readName
      let directives ← readDirectives
      return EnumValueDefinition.mk (description.map (·.move s.place)) name directives
        (← spanFrom (s.place start))) :=
    .bind matches_readName fun name => .bind matches_readDirectives fun directives =>
      .spanned fun _ => rfl
  refine .bind matches_current fun t => ?_
  obtain ⟨kind, text, span⟩ := t
  cases kind with
  | keyword k => cases k <;> first | exact hvalue | exact .behind (matches_report _) fun _ => hvalue
  | _ => exact hvalue

/-- A clause of names, if its opening token is there. -/
theorem matches_listed (kind : TokenKind) (p : Punctuator) :
    Matches s (·.map (·.move s.place)) (do if ← eat kind then separated p readName else return [])
      (do if ← eat kind then separated p readName else return []) :=
  .behind (matches_eat _) fun _ => .ite (fun _ => matches_separated _ matches_readName) fun _ =>
    .pure rfl

/-! ## Definitions -/

/-- `body` makes the node, and has to move with the names and fields that it is made of. -/
theorem matches_readFieldedType (description : Option Description) (start : Nat)
    {body : List Name → List FieldDefinition → TypeBody}
    (hbody : ∀ ns fs, body (ns.map (·.move s.place)) (fs.map (·.move s.place)) =
      (body ns fs).move s.place) :
    (readFieldedType description start body).Matches s (·.move s.place)
      (readFieldedType (description.map (·.move s.place)) (s.place start) body) := by
  refine .bind matches_readName fun name => .bind (matches_listed _ _) fun implements => ?_
  refine .bind matches_readDirectives fun directives => ?_
  refine .bind (matches_optionalItems _ _ matches_readFieldDefinition) fun fields => ?_
  exact .spanned fun _ => by rw [hbody]; rfl

theorem matches_readPlainType (description : Option Description) (start : Nat) {body : Reader TypeBody}
    (hbody : body.Matches s (·.move s.place) body) :
    (readPlainType description start body).Matches s (·.move s.place)
      (readPlainType (description.map (·.move s.place)) (s.place start) body) := by
  refine .bind matches_readName fun name => .bind matches_readDirectives fun directives => ?_
  exact .bind hbody fun body => .spanned fun _ => rfl

theorem matches_readTypeDefinition (description : Option Description) :
    (readTypeDefinition description).Matches s (Option.map (·.move s.place))
      (readTypeDefinition (description.map (·.move s.place))) := by
  refine .bind matches_current fun t => ?_
  obtain ⟨kind, text, span⟩ := t
  have hnone : Matches s (Option.map (·.move s.place))
      (do complain .typeDefinition; return (none : Option TypeDefinition))
      (do complain .typeDefinition; return (none : Option TypeDefinition)) :=
    .behind (matches_report _) fun _ => .pure rfl
  have htaken {r r' : Reader TypeDefinition} (h : r.Matches s (·.move s.place) r') :
      Matches s (Option.map (·.move s.place)) (do advance; some <$> r) (do advance; some <$> r') :=
    .behind matches_advance fun _ => .map h fun _ => rfl
  cases kind with
  | keyword k =>
    cases k
    case type => exact htaken (matches_readFieldedType description span.start fun _ _ => rfl)
    case interface => exact htaken (matches_readFieldedType description span.start fun _ _ => rfl)
    case union =>
      exact htaken (matches_readPlainType description span.start (.map (matches_listed _ _) fun _ => rfl))
    case enum =>
      exact htaken (matches_readPlainType description span.start
        (.map (matches_optionalItems _ _ matches_readEnumValue) fun _ => rfl))
    case input =>
      exact htaken (matches_readPlainType description span.start
        (.map (matches_optionalItems _ _ matches_readInputDefinition) fun _ => rfl))
    case scalar => exact htaken (matches_readPlainType description span.start (.pure rfl))
    all_goals exact hnone
  | _ => exact hnone

theorem matches_readRootBinding :
    readRootBinding.Matches s (Option.map (·.move s.place)) readRootBinding := by
  refine .bind matches_current fun t => ?_
  rw [Token.kind_move]
  cases t.kind.operation? with
  | some operation =>
    refine .behind matches_advance fun _ => .behind (matches_expect _) fun _ => ?_
    exact .bind matches_readName fun type => .spanned fun _ => rfl
  | none => exact .behind (matches_report _) fun _ => .pure rfl

/-- The answers that are there, all changed alike. -/
theorem filterMap_option_map {α β : Type} (g : α → β) (os : List (Option α)) :
    (os.map (Option.map g)).filterMap id = (os.filterMap id).map g := by
  simp only [List.map_filterMap, List.filterMap_map]
  rfl

/-- What was no binding is left out in both texts, at the same positions. -/
theorem matches_readSchemaDefinition (description : Option Description) (start : Nat) :
    (readSchemaDefinition description start).Matches s (·.move s.place)
      (readSchemaDefinition (description.map (·.move s.place)) (s.place start)) := by
  refine .behind matches_advance fun _ => .bind matches_readDirectives fun directives => ?_
  refine .bind (matches_optionalItems _ _ matches_readRootBinding) fun operations => ?_
  refine .spanned fun span => ?_
  simp only [SchemaDefinition.move, filterMap_option_map]

section Locations

variable {c : Cursor} {l : Location}

/-- Where no place stands, that is reported. -/
theorem readLocations_of_none (h : c.ahead.head?.bind (Location.ofText? ·.text) = none) :
    (readLocations c).1 = ([], c.report (.complaint .location)) := by
  rw [readLocations]
  split
  · rfl
  · next hsome => simp [h] at hsome

/-- Behind a place and a mark, the reader goes on. -/
theorem readLocations_of_mark (h : c.ahead.head?.bind (Location.ofText? ·.text) = some l)
    (hmark : (eat (.punct .pipe) c.advance).1.1 = true) :
    (readLocations c).1 = (l :: (readLocations (eat (.punct .pipe) c.advance).1.2).1.1,
      (readLocations (eat (.punct .pipe) c.advance).1.2).1.2) := by
  rw [readLocations.eq_def c]
  split
  · next hnone => simp [h] at hnone
  · next k hk =>
    obtain rfl : l = k := by simpa [h] using hk
    exact congrArg Subtype.val (if_pos hmark)

/-- A place without a mark is the last one. -/
theorem readLocations_of_last (h : c.ahead.head?.bind (Location.ofText? ·.text) = some l)
    (hmark : ¬ (eat (.punct .pipe) c.advance).1.1 = true) :
    (readLocations c).1 = ([l], (eat (.punct .pipe) c.advance).1.2) := by
  rw [readLocations.eq_def c]
  split
  · next hnone => simp [h] at hnone
  · next k hk =>
    obtain rfl : l = k := by simpa [h] using hk
    exact congrArg Subtype.val (if_neg hmark)

/-- Both texts have the same place at the cursor. -/
theorem Cursor.Follows.location {d : Cursor} (h : c.Follows s d) (hsees : c.Sees s) :
    d.ahead.head?.bind (Location.ofText? ·.text) = c.ahead.head?.bind (Location.ofText? ·.text) := by
  rw [h.ahead]
  cases hc : c.ahead with
  | nil => simp [s.behind_eq_nil (hsees.resolve_right (by simp [hc]))]
  | cons t ts => rfl

/-- Locations have no places of their own, so the answers are equal. The induction is that of the
reader. -/
theorem matches_readLocations : Matches s id readLocations readLocations := by
  intro c d hcd hsees
  fun_induction readLocations c generalizing d with
  | case1 c hnone =>
    have hnone' := (hcd.location hsees).trans hnone
    refine ⟨?_, ?_⟩ <;> rw [readLocations_of_none hnone']
    · rfl
    · exact hcd.report hsees _
  | case2 c l hl hb hlt found hfound hyes rest ih =>
    have hc : c.Sees s := .inr hb
    obtain ⟨hmark, hcursor⟩ := matches_eat (.punct .pipe) c.advance d.advance (hcd.advance hc)
      (hsees.of_suffix rest.2)
    obtain ⟨hanswer, hlast⟩ := ih _ hcursor hsees
    -- Whether the list goes on is an answer, and answers are the same in both texts.
    have heq := readLocations_of_mark ((hcd.location hc).trans hl) (hmark.trans hyes)
    refine ⟨?_, ?_⟩ <;> rw [heq]
    · exact congrArg (l :: ·) hanswer
    · exact hlast
  | case3 c l hl hb hlt found hfound hno =>
    have hc : c.Sees s := .inr hb
    obtain ⟨hmark, hcursor⟩ := matches_eat (.punct .pipe) c.advance d.advance (hcd.advance hc) hsees
    have heq := readLocations_of_last ((hcd.location hc).trans hl) (by rwa [hmark])
    refine ⟨?_, ?_⟩ <;> rw [heq]
    · rfl
    · exact hcursor

end Locations

theorem matches_readDirectiveDefinition (description : Option Description) :
    (readDirectiveDefinition description).Matches s (·.move s.place)
      (readDirectiveDefinition (description.map (·.move s.place))) := by
  refine .bind matches_place fun start => .behind matches_advance fun _ => ?_
  refine .behind (matches_expect _) fun _ => .bind matches_readName fun name => ?_
  refine .bind matches_readArgumentDefinitions fun arguments => ?_
  refine .behind (matches_eat _) fun repeatable => .behind (matches_expect _) fun _ => ?_
  refine .behind (matches_eat _) fun _ => .behind matches_readLocations fun locations => ?_
  exact .spanned fun _ => rfl

/-- An extension starts at the word `extend`, in front of what this reader sees. -/
theorem matches_readExtension (start : Nat) :
    (readExtension start).Matches s (Option.map (·.move s.place)) (readExtension (s.place start)) := by
  refine .bind matches_current fun t => .ite (fun _ => ?_) fun _ => ?_
  · exact .bind (matches_readSchemaDefinition none start) fun d => .pure rfl
  · refine .bind (matches_readTypeDefinition none) fun o => .pure ?_
    cases o <;> rfl

theorem matches_readDefinition :
    readDefinition.Matches s (Option.map (·.move s.place)) readDefinition := by
  refine .bind matches_readDescription fun description => .bind matches_current fun t => ?_
  obtain ⟨kind, text, span⟩ := t
  have hnone : Matches s (Option.map (·.move s.place))
      (do complain .definition; return (none : Option Definition))
      (do complain .definition; return (none : Option Definition)) :=
    .behind (matches_report _) fun _ => .pure rfl
  have hexecutable : Matches s (Option.map (·.move s.place))
      (do
        report .executable
        (skipTo .braceOpen : Reader Unit)
        (skipBlock 0 : Reader Unit)
        return (none : Option Definition))
      (do
        report .executable
        (skipTo .braceOpen : Reader Unit)
        (skipBlock 0 : Reader Unit)
        return (none : Option Definition)) :=
    .behind (matches_report _) fun _ => .behind (matches_skipTo _) fun _ =>
      .behind (matches_skipBlock _) fun _ => .pure rfl
  have htype : Matches s (Option.map (·.move s.place))
      (do return (← readTypeDefinition description).map Definition.type)
      (do return (← readTypeDefinition (description.map (·.move s.place))).map Definition.type) := by
    refine .bind (matches_readTypeDefinition description) fun o => .pure ?_
    cases o <;> rfl
  have hextension : Matches s (Option.map (·.move s.place))
      (do advance; readExtension span.start) (do advance; readExtension (s.place span.start)) :=
    .behind matches_advance fun _ => matches_readExtension span.start
  -- Every branch has a reader of its own, and each of them has been shown to be followed.
  cases kind with
  | keyword k =>
    cases k
    case schema =>
      exact .bind (matches_readSchemaDefinition description span.start) fun d => .pure rfl
    case directive => exact .bind (matches_readDirectiveDefinition description) fun d => .pure rfl
    case extend =>
      cases description with
      | none => exact hextension
      | some d => exact .behind (matches_report _) fun _ => hextension
    all_goals first | exact htype | exact hexecutable | exact hnone
  | punct p => cases p <;> first | exact hexecutable | exact hnone
  | _ => exact hnone

/-! ## Whole texts -/

/-- A text by itself that stops at `stop`, at other places. -/
def Surroundings.moved {m : Nat → Nat} (hmax : ∀ a b, m (max a b) = max (m a) (m b)) (stop : Nat) :
    Surroundings where
  place := m
  place_max := hmax
  start := 0
  start_le _ := Nat.zero_le _
  before := []
  behind := []
  stop := m stop
  together := True
  behind_eq_nil _ := rfl

/-- Both texts are read from their first tokens on. -/
theorem Cursor.follows_start {m : Nat → Nat} (hmax : ∀ a b, m (max a b) = max (m a) (m b))
    (hzero : m 0 = 0) (lexed : Lexed) :
    (Cursor.start lexed.tokens lexed.stop).Follows (.moved hmax lexed.stop)
      (Cursor.start (lexed.move m).tokens (lexed.move m).stop) where
  ahead := (List.append_nil _).symm
  stop := rfl
  together _ := rfl
  lastStop := hzero.symm
  faults := rfl

/-- Reading a text at other places gives the same document and the same faults at other places. -/
theorem Parsed.ofLexed_move {m : Nat → Nat} (hmax : ∀ a b, m (max a b) = max (m a) (m b))
    (hzero : m 0 = 0) (lexed : Lexed) :
    Parsed.ofLexed (lexed.move m) = (Parsed.ofLexed lexed).move m := by
  let s := Surroundings.moved hmax lexed.stop
  let c := Cursor.start lexed.tokens lexed.stop
  let d := Cursor.start (lexed.move m).tokens (lexed.move m).stop
  let read := itemsUntil .endOfText readDefinition c
  let read' := itemsUntil .endOfText readDefinition d
  have hsees (e : Cursor) : e.Sees s := .inl trivial
  have hstart : c.Follows s d := Cursor.follows_start hmax hzero lexed
  obtain ⟨hanswer, hfinish⟩ : read.Follows s (·.map (Option.map (·.move m))) read' :=
    matches_itemsUntil .endOfText matches_readDefinition c d hstart (hsees _)
  have hdefinitions : read'.1.1.filterMap id = (read.1.1.filterMap id).map (·.move m) := by
    rw [hanswer, filterMap_option_map]
  have hfaults : read'.1.2.faults = read.1.2.faults.map (·.move m) := hfinish.faults
  change Parsed.mk ⟨read'.1.1.filterMap id, ⟨d.current.span.start, read'.1.2.current.span.stop⟩⟩
    read'.1.2.faults = _
  rw [hdefinitions, hfaults, hstart.current (hsees c), hfinish.current (hsees _)]
  rfl

end ResolverContracts
