import ResolverContracts.Proofs.Document.Placed
import ResolverContracts.Proofs.Document.ReadersAdvance
/-!
# What the readers lay down

Reader by reader, the nodes that are laid down are the extents of the answer. A node starts where its
name or its keyword stands; only the extension of a schema starts a word earlier, and a use of a
directive at its mark. What stands between the parts, marks and closing brackets, is read by readers
that answer with no node, and of these it is enough to know that they go on
(`Reader.Uses`).
-/

set_option autoImplicit false

namespace ResolverContracts

open Reader

variable {text : List Char} {b c d : Cursor}

/-! ## Names and descriptions -/

theorem place_bind {α : Type} (next : Nat → Reader α) (c : Cursor) :
    (place >>= next) c = next c.current.span.start c := rfl

/-- The text of a name is that of the token, so a name has the text of its place even where no name
stands. -/
theorem lays_readName : readName.Lays text fun name => [.name name] := by
  intro c hc
  have hhere : c.RunsTo text c := .refl hc
  have hsound : ∀ e ∈ [Extent.name ⟨c.current.text, c.current.span⟩], e.Sound text :=
    List.forall_mem_singleton.mpr (.name hc.current_fits (hc.slices _ c.current_mem_upcoming))
  unfold readName
  rw [current_bind]
  by_cases h : c.current.kind.isName = true
  · rw [if_pos h]
    have hahead : c.ahead ≠ [] := Cursor.ahead_ne_nil_of_kind (kind_ne_endOfText_of_isName h)
    refine ⟨hhere.advance, hsound, fun _ => ?_⟩
    exact .singleton (.name (hc.current_nonempty hahead)) (Nat.le_refl _) (Nat.le_refl _)
  · rw [if_neg h]
    refine ⟨hhere.report _, hsound, fun heq => ?_⟩
    -- The fault is there, so nothing is said of the row.
    change c.faults ++ [_] = c.faults at heq
    simp at heq

/-- A node that starts with its name. -/
theorem lays_named {α : Type} {next : Name → Reader α} {all : α → List Extent}
    (h : c.RunsTo text d) (hnext : ∀ name, Completes text b c [.name name] (next name) all) :
    ((readName >>= next) d).Lays text b all :=
  hnext _ _ (h.trans_lays (lays_readName d h.placed)).fills

/-- A node that starts with a token which is no part. -/
theorem lays_taken {α : Type} {next : Reader α} {all : α → List Extent} (h : c.RunsTo text d)
    (hnext : Completes text b c [] next all) : ((advance >>= fun _ => next) d).Lays text b all :=
  hnext _ h.fills

/-- A description is in front of the node it belongs to, so it opens the node and is no part of its
span. -/
theorem opens_readDescription (hc : c.Placed text) :
    c.Opens text (frontOf (readDescription c).1.1) (readDescription c).1.2 := by
  unfold readDescription
  rw [current_bind]
  cases c.current.contents? with
  | none => exact (Cursor.RunsTo.refl hc).opens
  | some contents =>
    refine ⟨(Cursor.RunsTo.refl hc).advance, ?_, ?_⟩
    · rintro s ⟨⟩
      exact hc.current_fits
    · rintro s ⟨⟩
      exact ⟨Nat.le_refl _, hc.current_stop_le⟩

/-- A node with a description in front, if it has one. -/
theorem lays_described {α : Type} {next : Option Description → Reader α} {all : α → List Extent}
    (hnext : ∀ description d, c.Opens text (frontOf description) d →
      (next description d).Lays text c all) (hc : c.Placed text) :
    ((readDescription >>= next) c).Lays text c all :=
  hnext _ _ (opens_readDescription hc)

/-! ## Types -/

/-- A type that is closed is the one part of the type that closes it. -/
theorem completes_closeType (type : TypeNode) (hc : c.Placed text) :
    Completes text c c [type.extent] (closeType c.current.span.start type) fun t => [t.extent] := by
  refine .skip (uses_eat_mark .bang) fun _ => .ite ?_ (.row rfl)
  exact .spanned (Cursor.RunsTo.refl hc).opens fun span => rfl

/-- The induction is that of the reader: a list type lays its element between its brackets. -/
theorem lays_readType : Lays text readType fun type => [type.extent] := by
  intro c hc
  fun_induction readType c with
  | case1 c start hk hlt ih =>
    -- The list starts at the bracket, so its one part is read from the next token on.
    have hitem : c.Fills text (readType c.advance).1.2 [(readType c.advance).1.1.extent] :=
      (Cursor.RunsTo.refl hc).fills.lay (ih hc.advance)
    refine Completes.andThen hitem (.skip (uses_expect_mark .bracketClose) fun _ => ?_)
    exact .wrapped hc fun span => completes_closeType (.list _ span) hc
  | case2 c start hk =>
    -- The name is the part that a mark of a required type closes around.
    exact Completes.andThen (lays_readName c hc).fills (completes_closeType (.named _) hc)

/-! ## Constants -/

/-- A constant of one token. -/
theorem lays_takeValue {value : Span → Value} (h : c.RunsTo text d)
    (hvalue : ∀ span, (value span).extent = .node none span []) :
    (takeValue c.current.span.start value d).Lays text c fun v => [v.extent] :=
  lays_taken h (.spanned (Cursor.RunsTo.refl h.origin).opens fun span => by rw [hvalue])

theorem lays_readInt (hc : c.Placed text) :
    (readInt c.current.span.start c).Lays text c fun v => [v.extent] := by
  unfold readInt
  rw [current_bind]
  have hhere : c.RunsTo text c := .refl hc
  cases int64OfLiteral? c.current.text with
  | some n => exact lays_takeValue hhere fun span => rfl
  | none => exact lays_takeValue (hhere.report (.complaint .integerRange)) fun span => rfl

theorem lays_enumName : (do return Value.enum (← readName) : Reader Value).Lays text
    fun v => [v.extent] := lays_readName

theorem lays_readScalarValue : readScalarValue.Lays text fun v => [v.extent] := by
  intro c hc
  unfold readScalarValue
  rw [current_bind]
  have hhere : c.RunsTo text c := .refl hc
  have htaken {value : Span → Value} (hvalue : ∀ span, (value span).extent = .node none span []) :
      (takeValue c.current.span.start value c).Lays text c fun v => [v.extent] :=
    lays_takeValue hhere hvalue
  have hnone : (readNoValue c.current.span.start c).Lays text c fun v => [v.extent] :=
    lays_takeValue (hhere.report (.complaint .value)) fun span => rfl
  cases hk : c.current.kind with
  | int => exact lays_readInt hc
  | float | string | blockString => exact htaken fun span => rfl
  | name => exact lays_enumName c hc
  | keyword k =>
    cases k
    case trueWord | falseWord | nullWord => exact htaken fun span => rfl
    all_goals exact lays_enumName c hc
  | punct p =>
    cases p
    case dollar =>
      -- The name behind the mark stands for the variable.
      have hbehind := (hhere.report (.complaint .variableUse)).advance
      exact hbehind.trans_lays (lays_readName _ hbehind.placed)
    all_goals exact hnone
  | endOfText | stray => exact hnone

theorem lays_readKey : readKey.Lays text fun name => [.name name] :=
  lays_readName.skip (uses_expect_mark .colon)

/-- A row in brackets is the row of the parts of one node. -/
theorem lays_closed {α β : Type} {close : Punctuator} (hc : c.Placed text)
    {items : Step c.advance (List α)} {extents : List α → List Extent}
    (hitems : items.Lays text c.advance extents) {f : List α → Span → β} {all : β → List Extent}
    (h : ∀ xs span, all (f xs span) = [.node none span (extents xs)]) :
    Step.Lays text c ((items.since c.advance_ahead_suffix : Step c (List α)).andThen fun xs => do
      expect (.punct close)
      return f xs (← spanFrom c.current.span.start)) all := by
  have hrow : c.Fills text items.1.2 (extents items.1.1) := (Cursor.RunsTo.refl hc).fills.lay hitems
  refine Completes.andThen hrow (.skip (uses_expect_mark close) fun _ => ?_)
  exact .spanned (Cursor.RunsTo.refl hc).opens (h items.1.1)

/-- A constant. The induction is on the tokens ahead, as items are read at later cursors only. -/
theorem lays_readValue : Lays text readValue fun v => [v.extent] := by
  intro c hc
  induction hlength : c.ahead.length using Nat.strong_induction_on generalizing c with
  | _ n ih =>
    rw [readValue]
    by_cases hl : c.kind = .punct .bracketOpen
    · rw [dif_pos hl]
      refine lays_closed hc (lays_itemsBelow (fun d hd hplaced => ?_) _ _ hc.advance)
        fun vs span => by rw [Value.extent, Value.extentsOfItems_eq]
      exact ih d.ahead.length (by rwa [← hlength, ← c.left_eq]) d hplaced rfl
    rw [dif_neg hl]
    by_cases ho : c.kind = .punct .braceOpen
    · rw [dif_pos ho]
      refine lays_closed hc (lays_itemsBelow (fun d hd hplaced => ?_) _ _ hc.advance)
        fun fs span => by rw [Value.extent, Value.extentsOfFields_eq]
      -- The parts of an object are its keys and its constants by turns.
      have hkey : d.Lays text (readKey d).1.2 [.name (readKey d).1.1] := lays_readKey d hplaced
      have hvalue := ih (readKey d).1.2.ahead.length
        (Nat.lt_of_le_of_lt (readKey d).2.length_le (by rwa [← hlength, ← c.left_eq]))
        (readKey d).1.2 hkey.placed rfl
      exact hkey.trans hvalue
    · rw [dif_neg ho]
      exact lays_readScalarValue c hc

/-! ## Directives and members -/

theorem lays_readArgument : readArgument.Lays text fun a => [a.extent] := by
  intro c hc
  unfold readArgument
  rw [place_bind]
  refine lays_named (.refl hc) fun name => .skip (uses_expect_mark .colon) fun _ => ?_
  refine .lay lays_readValue fun value => ?_
  exact .spanned (Cursor.RunsTo.refl hc).opens fun span => rfl

/-- The use of a directive starts at its mark. -/
theorem lays_readDirectives : readDirectives.Lays text (·.map Directive.extent) := by
  refine Lays.each (lays_eachAfter fun c hc => ?_)
  have hhere : c.RunsTo text c := .refl hc
  refine lays_named hhere.advance fun name => ?_
  refine .lay (lays_optionalItems lays_readArgument).each fun arguments => ?_
  exact .spanned hhere.opens fun span => rfl

theorem lays_readInputDefinition : readInputDefinition.Lays text fun d => [d.extent] := by
  intro c₀ hc₀
  refine lays_described (fun description c hopen => ?_) hc₀
  rw [place_bind]
  refine lays_named (.refl hopen.placed) fun name => .skip (uses_expect_mark .colon) fun _ => ?_
  refine .lay lays_readType fun type => .skip (uses_eat_mark .equals) fun _ => .ite ?_ ?_
  · have hdefault : Lays text (some <$> (readValue : Reader Value) : Reader (Option Value))
        fun (default : Option Value) => default.toList.map Value.extent := lays_readValue
    refine .lay hdefault fun default => .lay lays_readDirectives fun directives => ?_
    exact .spanned hopen fun span => rfl
  · -- A default that is not there is no part.
    have hdefault : (pure none : Reader (Option Value)).Lays text
        fun (default : Option Value) => default.toList.map Value.extent := .pure rfl
    refine .lay hdefault fun default => .lay lays_readDirectives fun directives => ?_
    exact .spanned hopen fun span => rfl

theorem lays_readArgumentDefinitions :
    readArgumentDefinitions.Lays text (·.map InputDefinition.extent) :=
  (lays_optionalItems lays_readInputDefinition).each

/-- A field lays its arguments in front of its type, as they are written. -/
theorem lays_readFieldDefinition : readFieldDefinition.Lays text fun d => [d.extent] := by
  intro c₀ hc₀
  refine lays_described (fun description c hopen => ?_) hc₀
  rw [place_bind]
  refine lays_named (.refl hopen.placed) fun name => ?_
  refine .lay lays_readArgumentDefinitions fun arguments => .skip (uses_expect_mark .colon) fun _ => ?_
  refine .lay lays_readType fun type => .lay lays_readDirectives fun directives => ?_
  exact .spanned hopen fun span => rfl

theorem lays_readEnumValue : readEnumValue.Lays text fun d => [d.extent] := by
  intro c₀ hc₀
  refine lays_described (fun description c hopen => ?_) hc₀
  rw [place_bind, current_bind]
  have hname {d : Cursor} (h : c.RunsTo text d) : ((do
      let name ← readName
      let directives ← readDirectives
      return ⟨description, name, directives, ← spanFrom c.current.span.start⟩ :
        Reader EnumValueDefinition) d).Lays text c₀ fun d => [d.extent] :=
    lays_named h fun name => .lay lays_readDirectives fun directives => .spanned hopen fun span => rfl
  have hhere : c.RunsTo text c := .refl hopen.placed
  -- A word that is a constant is reported in front of the name.
  cases hk : c.current.kind with
  | keyword k => cases k <;> first | exact hname (hhere.report _) | exact hname hhere
  | _ => exact hname hhere

theorem lays_readImplements : readImplements.Lays text (·.map .name) :=
  lays_behind (uses_eat_keyword .implements) (lays_separated lays_readName).each rfl

theorem lays_readMembers : readMembers.Lays text (·.map .name) :=
  lays_behind (uses_eat_mark .equals) (lays_separated lays_readName).each rfl

/-! ## Definitions -/

section Definitions

variable {description : Option Description}

/-- An object or an interface, whose keyword stood at `c`. -/
theorem completes_readFieldedType (hopen : b.Opens text (frontOf description) c)
    {body : List Name → List FieldDefinition → TypeBody}
    (hbody : ∀ interfaces fields, (body interfaces fields).implementsNames = interfaces ∧
      (body interfaces fields).memberExtents = fields.map (·.extent)) :
    Completes text b c [] (readFieldedType description c.current.span.start body)
      fun d => [d.extent] := by
  refine .lay lays_readName fun name => .lay lays_readImplements fun interfaces => ?_
  refine .lay lays_readDirectives fun directives => ?_
  refine .lay (lays_optionalItems lays_readFieldDefinition).each fun fields => ?_
  refine .spanned hopen fun span => ?_
  obtain ⟨hnames, hmembers⟩ := hbody interfaces fields
  rw [TypeDefinition.extent, hnames, hmembers]
  rfl

/-- Another type, whose keyword stood at `c`. Its body is made of what `r` reads. -/
theorem completes_readPlainType {α : Type} (hopen : b.Opens text (frontOf description) c)
    {r : Reader α} {body : α → TypeBody} (hnames : ∀ a, (body a).implementsNames = [])
    (hbody : r.Lays text fun a => (body a).memberExtents) :
    Completes text b c [] (readPlainType description c.current.span.start (body <$> r))
      fun d => [d.extent] := by
  refine .lay lays_readName fun name => .lay lays_readDirectives fun directives => ?_
  have hmembers : Completes text b c ([.name name] ++ directives.map (·.extent)) (do
      let a ← r
      return ⟨description, name, directives, body a, ← spanFrom c.current.span.start⟩)
      fun d : TypeDefinition => [d.extent] := by
    refine .lay hbody fun a => .spanned hopen fun span => ?_
    rw [TypeDefinition.extent, hnames]
    rfl
  exact hmembers

theorem lays_readTypeDefinition (hopen : b.Opens text (frontOf description) c) :
    (readTypeDefinition description c).Lays text b (·.toList.map TypeDefinition.extent) := by
  have hhere : c.RunsTo text c := .refl hopen.placed
  have hnone : Step.Lays text b ((do complain .typeDefinition; return none :
      Reader (Option TypeDefinition)) c) (·.toList.map TypeDefinition.extent) :=
    (hopen.report (.complaint .typeDefinition)).lays
  have htaken {r : Reader TypeDefinition} (hr : Completes text b c [] r fun d => [d.extent]) :
      Step.Lays text b ((advance >>= fun _ => some <$> r) c)
        (·.toList.map TypeDefinition.extent) :=
    hr _ hhere.fills
  unfold readTypeDefinition
  rw [current_bind]
  -- The keyword is inside the node, which starts where the reader does.
  cases hk : c.current.kind with
  | keyword k =>
    cases k
    case type => exact htaken (completes_readFieldedType hopen fun _ _ => ⟨rfl, rfl⟩)
    case interface => exact htaken (completes_readFieldedType hopen fun _ _ => ⟨rfl, rfl⟩)
    case union => exact htaken (completes_readPlainType hopen (fun _ => rfl) lays_readMembers)
    case enum =>
      exact htaken (completes_readPlainType hopen (fun _ => rfl)
        (lays_optionalItems lays_readEnumValue).each)
    case input =>
      exact htaken (completes_readPlainType hopen (fun _ => rfl)
        (lays_optionalItems lays_readInputDefinition).each)
    case scalar =>
      have hscalar : Completes text b c [] (readPlainType description c.current.span.start
          ((fun _ => TypeBody.scalar) <$> (pure () : Reader Unit))) fun d => [d.extent] :=
        completes_readPlainType hopen (fun _ => rfl) (.pure rfl)
      exact htaken hscalar
    all_goals exact hnone
  | _ => exact hnone

/-- The word for the operation is inside the node, and no name of it. -/
theorem lays_readRootBinding : readRootBinding.Lays text (·.toList.map RootBinding.extent) := by
  intro c hc
  have hhere : c.RunsTo text c := .refl hc
  unfold readRootBinding
  rw [current_bind]
  cases c.current.kind.operation? with
  | none => exact (hhere.report (.complaint .rootOperation)).lays
  | some operation =>
    refine lays_taken hhere (.skip (uses_expect_mark .colon) fun _ => ?_)
    exact .lay lays_readName fun type => .spanned hhere.opens fun span => rfl

/-- A schema block behind the words in front of its keyword. -/
theorem lays_readSchemaDefinition (hopen : b.Opens text (frontOf description) c)
    (h : c.RunsTo text d) :
    (readSchemaDefinition description c.current.span.start d).Lays text b fun d => [d.extent] := by
  refine lays_taken h (.lay lays_readDirectives fun directives => ?_)
  refine .lay (lays_optionalItems lays_readRootBinding).eachSome fun operations => ?_
  exact .spanned hopen fun span => rfl

theorem lays_readDirectiveDefinition (hopen : b.Opens text (frontOf description) c) :
    (readDirectiveDefinition description c).Lays text b fun d => [d.extent] := by
  unfold readDirectiveDefinition
  rw [place_bind]
  refine lays_taken (.refl hopen.placed) (.skip (uses_expect_mark .atSign) fun _ => ?_)
  refine .lay lays_readName fun name => .lay lays_readArgumentDefinitions fun arguments => ?_
  refine .skip (uses_eat_keyword .repeatable) fun repeatable => ?_
  refine .skip (uses_expect_keyword .on) fun _ => .skip (uses_eat_mark .pipe) fun _ => ?_
  exact .skip uses_readLocations fun locations => .spanned hopen fun span => rfl

/-- A type definition as a definition has the same places. -/
theorem lays_wrapped {s : Step c (Option TypeDefinition)} {wrap : TypeDefinition → Definition}
    (hwrap : ∀ d, (wrap d).extent = d.extent) (h : s.Lays text b (·.toList.map TypeDefinition.extent)) :
    Step.Lays text b (s.andThen fun found => return found.map wrap)
      (·.toList.map Definition.extent) := by
  change b.Lays text s.1.2 ((s.1.1.map wrap).toList.map Definition.extent)
  unfold Step.Lays at h
  cases hfound : s.1.1 with
  | none => rwa [hfound] at h
  | some d =>
    rw [hfound] at h
    change b.Lays text s.1.2 [(wrap d).extent]
    rwa [hwrap]

/-- What stands behind `extend`, which stood at `c`. The span of a schema extension starts there. -/
theorem lays_readExtension (hc : b.RunsTo text c) (hd : c.RunsTo text d) :
    (readExtension c.current.span.start d).Lays text b (·.toList.map Definition.extent) := by
  unfold readExtension
  rw [current_bind]
  -- The extension of a type starts at the keyword of the type instead.
  by_cases hk : d.current.kind = .keyword .schema
  · rw [if_pos hk]
    have hopen : b.Opens text (frontOf none) c := hc.opens
    exact lays_readSchemaDefinition hopen hd
  · rw [if_neg hk]
    exact lays_wrapped (fun _ => rfl) (lays_readTypeDefinition (hc.trans hd).opens)

theorem lays_readDefinition : readDefinition.Lays text (·.toList.map Definition.extent) := by
  intro c₀ hc₀
  refine lays_described (fun description c hopen => ?_) hc₀
  rw [current_bind]
  have hhere : c.RunsTo text c := .refl hopen.placed
  have htype : Step.Lays text c₀ ((do return (← readTypeDefinition description).map .type :
      Reader (Option Definition)) c) (·.toList.map Definition.extent) :=
    lays_wrapped (fun _ => rfl) (lays_readTypeDefinition hopen)
  have hnone : Step.Lays text c₀ ((do complain .definition; return none :
      Reader (Option Definition)) c) (·.toList.map Definition.extent) :=
    (hopen.report (.complaint .definition)).lays
  have hskipped : Step.Lays text c₀ ((do
      report .executable
      (skipTo .braceOpen : Reader Unit)
      (skipBlock 0 : Reader Unit)
      return none : Reader (Option Definition)) c) (·.toList.map Definition.extent) :=
    (hopen.toRunsTo.trans ((uses_executable c).runsTo hopen.placed)).lays
  cases hk : c.current.kind with
  | keyword k =>
    cases k
    case schema => exact lays_readSchemaDefinition hopen hhere
    case directive => exact lays_readDirectiveDefinition hopen
    case extend =>
      -- A description is reported here, and belongs to no node.
      cases description with
      | none => exact lays_readExtension hopen.toRunsTo hhere.advance
      | some d => exact lays_readExtension hopen.toRunsTo (hhere.report .describedExtension).advance
    all_goals first | exact htype | exact hskipped | exact hnone
  | punct p => cases p <;> first | exact hskipped | exact hnone
  | _ => exact hnone

end Definitions

end ResolverContracts
