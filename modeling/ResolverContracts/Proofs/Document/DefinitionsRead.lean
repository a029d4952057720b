import ResolverContracts.Document.Parse
import ResolverContracts.Proofs.Document.MembersRead
/-!
# Type definitions, schema blocks and directive definitions, read back

Each of these ends with a part that may be missing: interfaces, directives, members in braces, places
behind a mark. `definitionKinds` are the tokens by which such a part goes on, and the readers here are
right wherever none of them follows.
-/

set_option autoImplicit false

namespace ResolverContracts

open Reader
open Lexeme (word keyword mark)

/-! ## Type definitions -/

theorem reads_listed {opener : Lexeme} {p : Punctuator} {names : List Name} {ls : List Lexeme}
    (h : Listed opener p names ls) :
    Reads (do if ← eat opener.kind then separated p readName else return []) ls
      (Avoids [opener.kind, .punct p]) fun ns => ns.map (·.unplaced) = names.map (·.unplaced) := by
  cases h with
  | absent =>
    refine .last (reads_eat_absent fun k hk heq => hk (by simp [heq])) fun found hfound => ?_
    subst hfound
    exact .pure rfl
  | present h =>
    refine .token (reads_eat rfl) fun found hfound => ?_
    subst hfound
    exact (reads_separated h reads_readName).avoiding (by simp)

/-- Where there is nothing to list, there is no clause. -/
theorem Listed.eq_nil {opener : Lexeme} {p : Punctuator} {ls : List Lexeme}
    (h : Listed opener p [] ls) : ls = [] := by
  cases h with
  | absent => rfl
  | present h => cases h

/-- The kinds of tokens by which a definition goes on. -/
def definitionKinds : List TokenKind :=
  [.keyword .implements, .punct .ampersand, .punct .equals, .punct .pipe, .punct .braceOpen,
    .punct .atSign, .punct .parenOpen]

/-- Members in braces at the end of a definition. -/
theorem reads_block {α β γ : Type} {f : α → γ} {g : β → γ} {W : β → List Lexeme → Prop} {xs : List β}
    {ls : List Lexeme} {item : Reader α} (h : Bracketed .braceOpen .braceClose W xs ls)
    (hitem : ∀ x us, W x us → item.Reads us (Avoids memberKinds) fun a => f a = g x)
    (hopen : ∀ x us, W x us → StartsAs OpensMember us) :
    (optionalItems .braceOpen .braceClose item).Reads ls (Avoids definitionKinds)
      fun as => as.map f = xs.map g :=
  (reads_members h hitem hopen (by decide)).avoiding (by decide)

section TypeDefinitions

variable {d : TypeDefinition} {description : Option Description} {start : Nat} {l : Lexeme}
  {implements directives members : List Lexeme}

/-- An object or an interface from its keyword on. -/
theorem reads_fieldedType {names : List Name} {fields : List FieldDefinition}
    {body : List Name → List FieldDefinition → TypeBody}
    (hdescription : description.map (·.unplaced) = d.description.map (·.unplaced))
    (himplements : Listed (keyword .implements) .ampersand names implements)
    (hdirectives : Row Directive.Written d.directives directives)
    (hfields : Bracketed .braceOpen .braceClose FieldDefinition.Written fields members)
    (hbody : ∀ ns fs, ns.map (·.unplaced) = names.map (·.unplaced) →
      fs.map (·.unplaced) = fields.map (·.unplaced) → (body ns fs).unplaced = d.body.unplaced) :
    Reads (do advance; some <$> readFieldedType description start body)
      (l :: word d.name.text :: (implements ++ (directives ++ members))) (Avoids definitionKinds)
      fun e => e.map (·.unplaced) = some d.unplaced := by
  have hmembers : Offers [.punct .braceOpen] members := hfields.offers
  refine .token (reads_advance l) fun _ _ => .mapSome ?_
  refine .token (reads_readName d.name) fun name hname => ?_
  refine .bind (reads_listed himplements) (fun ns hns => ?_) fun rest hrest =>
    ((offers_directives hdirectives).append hmembers).avoids hrest (by decide)
  refine .bind (reads_readDirectives hdirectives) (fun ds hds => ?_) fun rest hrest =>
    hmembers.avoids hrest (by decide)
  refine .last (reads_block hfields (fun _ _ => reads_readFieldDefinition)
    fun _ _ hus => hus.opensMember) fun fs hfs => .spanned fun span => ?_
  simp only [TypeDefinition.unplaced, hdescription, hname, hds, hbody ns fs hns hfs]

/-- Any other type definition from its keyword on. There is nothing that it could implement. -/
theorem reads_plainType {body : Reader TypeBody}
    (hdescription : description.map (·.unplaced) = d.description.map (·.unplaced))
    (himplements : Listed (keyword .implements) .ampersand [] implements)
    (hdirectives : Row Directive.Written d.directives directives)
    (hoffers : Offers [.punct .braceOpen, .punct .equals] members)
    (hbody : body.Reads members (Avoids definitionKinds) fun b => b.unplaced = d.body.unplaced) :
    Reads (do advance; some <$> readPlainType description start body)
      (l :: word d.name.text :: (implements ++ (directives ++ members))) (Avoids definitionKinds)
      fun e => e.map (·.unplaced) = some d.unplaced := by
  rw [himplements.eq_nil, List.nil_append]
  refine .token (reads_advance l) fun _ _ => .mapSome ?_
  refine .token (reads_readName d.name) fun name hname => ?_
  refine .bind (reads_readDirectives hdirectives) (fun ds hds => ?_) fun rest hrest =>
    hoffers.avoids hrest (by decide)
  refine .last hbody fun b hb => .spanned fun span => ?_
  simp only [TypeDefinition.unplaced, hdescription, hname, hds, hb]

/-- A type definition behind its description, with one case for each kind of type. -/
theorem reads_readTypeDefinition
    (hdescription : description.map (·.unplaced) = d.description.map (·.unplaced))
    (himplements : Listed (keyword .implements) .ampersand d.body.implementsNames implements)
    (hdirectives : Row Directive.Written d.directives directives)
    (hmembers : d.body.MembersWritten members) :
    (readTypeDefinition description).Reads
      (word d.body.kind.keyword :: word d.name.text :: (implements ++ (directives ++ members)))
      (Avoids definitionKinds) fun e => e.map (·.unplaced) = some d.unplaced := by
  refine .look fun t ht => ?_
  -- The keyword says which kind of type follows, and the reader goes by it.
  have hkeyword : ∀ k : Keyword, d.body.kind.keyword = k.text → t.kind = .keyword k := by
    intro k hk
    rw [Token.kind_eq ht, hk, Lexeme.word_text]
    rfl
  cases hb : d.body <;> rw [hb] at himplements hmembers
  case object names fields =>
    rw [hkeyword .type (by rw [hb]; rfl)]
    refine reads_fieldedType hdescription himplements hdirectives hmembers fun ns fs hns hfs => ?_
    rw [hb, TypeBody.unplaced, hns, hfs]
    rfl
  case interface names fields =>
    rw [hkeyword .interface (by rw [hb]; rfl)]
    refine reads_fieldedType hdescription himplements hdirectives hmembers fun ns fs hns hfs => ?_
    rw [hb, TypeBody.unplaced, hns, hfs]
    rfl
  case scalar =>
    rw [hkeyword .scalar (by rw [hb]; rfl)]
    obtain rfl : members = [] := hmembers
    refine reads_plainType hdescription himplements hdirectives (offers_nil _) (.pure ?_)
    rw [hb]
  case union names =>
    rw [hkeyword .union (by rw [hb]; rfl)]
    have hnames : Listed (mark .equals) .pipe names members := hmembers
    refine reads_plainType hdescription himplements hdirectives (hnames.offers.mono (by decide))
      (.map ?_)
    refine ((reads_listed hnames).avoiding (by decide)).imp fun ns hns => ?_
    rw [hb, TypeBody.unplaced, TypeBody.unplaced, hns]
  case enum values =>
    rw [hkeyword .enum (by rw [hb]; rfl)]
    have hvalues : Bracketed _ _ EnumValueDefinition.Written values members := hmembers
    refine reads_plainType hdescription himplements hdirectives (hvalues.offers.mono (by decide))
      (.map ?_)
    refine (reads_block hvalues (fun _ _ => reads_readEnumValue)
      fun _ _ hus => hus.opensMember).imp fun vs hvs => ?_
    rw [hb, TypeBody.unplaced, TypeBody.unplaced, hvs]
  case inputObject fields =>
    rw [hkeyword .input (by rw [hb]; rfl)]
    have hfields : Bracketed _ _ InputDefinition.Written fields members := hmembers
    refine reads_plainType hdescription himplements hdirectives (hfields.offers.mono (by decide))
      (.map ?_)
    refine (reads_block hfields (fun _ _ => reads_readInputDefinition)
      fun _ _ hus => hus.opensMember).imp fun fs hfs => ?_
    rw [hb, TypeBody.unplaced, TypeBody.unplaced, hfs]

end TypeDefinitions

/-! ## Schema blocks -/

theorem operation?_keyword (o : Operation) :
    (word o.keyword).kind.operation? = some o := by
  cases o with
  | query => exact congrArg (·.kind.operation?) (Lexeme.word_text .query)
  | mutation => exact congrArg (·.kind.operation?) (Lexeme.word_text .mutation)
  | subscription => exact congrArg (·.kind.operation?) (Lexeme.word_text .subscription)

theorem reads_readRootBinding {b : RootBinding} {ls : List Lexeme} (h : b.Written ls) :
    readRootBinding.Reads ls Anything fun o => o.map (·.unplaced) = some b.unplaced := by
  cases h
  refine .look fun t ht => ?_
  rw [Token.kind_eq ht, operation?_keyword]
  refine .token (reads_advance _) fun _ _ => .token (reads_expect rfl) fun _ _ => ?_
  refine .last (reads_readName b.type) fun type htype => .spanned fun span => ?_
  simp only [Option.map_some, RootBinding.unplaced, htype]

/-- What was read of items that are all there. -/
theorem map_filterMap_id {α β γ : Type} {f : α → γ} {g : β → γ} {os : List (Option α)} {xs : List β}
    (h : os.map (Option.map f) = xs.map fun x => some (g x)) :
    (os.filterMap id).map f = xs.map g := by
  have hf : (os.filterMap id).map f = (os.map (Option.map f)).filterMap id := by
    rw [List.map_filterMap, List.filterMap_map]
    rfl
  rw [hf, h, List.filterMap_map, ← List.filterMap_eq_map]
  rfl

/-- A schema block from its keyword on. -/
theorem reads_readSchemaDefinition {d : SchemaDefinition} {description : Option Description}
    {start : Nat} {directives operations : List Lexeme}
    (hdescription : description.map (·.unplaced) = d.description.map (·.unplaced))
    (hdirectives : Row Directive.Written d.directives directives)
    (hoperations : Bracketed .braceOpen .braceClose RootBinding.Written d.operations operations) :
    (readSchemaDefinition description start).Reads (keyword .schema :: (directives ++ operations))
      (Avoids definitionKinds) fun e => e.unplaced = d.unplaced := by
  refine .token (reads_advance _) fun _ _ => ?_
  refine .bind (reads_readDirectives hdirectives) (fun ds hds => ?_) fun rest hrest =>
    hoperations.offers.avoids hrest (by decide)
  refine .last (reads_block hoperations (fun b us hus =>
    (reads_readRootBinding hus).anywhere) fun b us hus => ?_)
    fun os hos => .spanned fun span => ?_
  · cases hus
    exact ⟨_, _, rfl, .inr (Lexeme.isName_word _)⟩
  · simp only [SchemaDefinition.unplaced, hdescription, hds, map_filterMap_id hos]

/-! ## Directive definitions -/

/-- One place: behind it the reader goes on if a mark stands there. -/
theorem run_readLocations {c : Cursor} {l : Location} {more : List Lexeme}
    (h : c.lexemes = word l.text :: more) :
    run readLocations c = run (do
      advance
      if ← eat (.punct .pipe) then (l :: ·) <$> (readLocations : Reader (List Location))
      else return [l]) c := by
  -- The reader goes by the text of the next token, whatever its kind.
  have hl : c.ahead.head?.bind (Location.ofText? ·.text) = some l := by
    unfold Cursor.lexemes at h
    cases hc : c.ahead with
    | nil => simp [hc] at h
    | cons t ts =>
      rw [hc, List.map_cons, List.cons.injEq] at h
      have htext : t.text = l.text := Token.text_eq h.1
      simp [htext, Location.ofText?_text]
  change (readLocations c).1 = ((if (eat (.punct .pipe) c.advance).1.1 then
    (l :: ·) <$> (readLocations : Reader (List Location)) else pure [l] : Reader (List Location))
      (eat (.punct .pipe) c.advance).1.2).1
  rw [readLocations]
  split
  · next hnone => simp [hl] at hnone
  · next location hsome =>
    obtain rfl : l = location := by simpa [hl] using hsome
    by_cases hmark : (eat (.punct .pipe) c.advance).1.1 = true
    · rw [if_pos hmark]
      exact congrArg Subtype.val (if_pos hmark)
    · rw [if_neg hmark]
      exact congrArg Subtype.val (if_neg hmark)

/-- A place, and more places behind marks. -/
theorem reads_readLocations {ls : List Location} {more : List Lexeme}
    (hrow : Row (fun y us => us = [mark .pipe, word y.text]) ls more) (l : Location) :
    Reads readLocations (word l.text :: more) (Avoids [.punct .pipe]) (· = l :: ls) := by
  induction hrow generalizing l with
  | nil =>
    refine .of_run ?_ fun c rest hc => run_readLocations hc
    refine .token (reads_advance _) fun _ _ => ?_
    refine .last (reads_eat_avoided _) fun found hfound => ?_
    subst hfound
    exact .pure rfl
  | cons hx hxs ih =>
    subst hx
    refine .of_run ?_ fun c rest hc => run_readLocations hc
    refine .token (reads_advance _) fun _ _ => .token (reads_eat rfl) fun found hfound => ?_
    subst hfound
    exact .map ((ih _).imp fun ls hls => congrArg (l :: ·) hls)

theorem reads_locations {ls : List Location} {row : List Lexeme}
    (h : Separated .pipe Location.text ls row) :
    Reads (do let _ ← eat (.punct .pipe); readLocations) row (Avoids [.punct .pipe]) (· = ls) := by
  cases h with
  | plain hrow =>
    exact .bind (reads_eat_avoided _) (fun _ _ => reads_readLocations hrow _)
      fun _ _ => avoids_word _ (by decide)
  | behindMark hrow => exact .token (reads_eat rfl) fun _ _ => reads_readLocations hrow _

theorem RepeatableWritten.offers {b : Bool} {ls : List Lexeme} (h : RepeatableWritten b ls) :
    Offers [.keyword .repeatable] ls := by
  cases h with
  | absent => exact offers_nil _
  | present => exact offers_cons (by simp [keyword])

theorem reads_repeatable {b : Bool} {ls : List Lexeme} (h : RepeatableWritten b ls) :
    (eat (.keyword .repeatable)).Reads ls (Avoids [.keyword .repeatable]) (· = b) := by
  cases h with
  | absent => exact reads_eat_avoided _
  | present => exact (reads_eat rfl).anywhere

/-- A directive definition from its keyword on. -/
theorem reads_readDirectiveDefinition {d : DirectiveDefinition} {description : Option Description}
    {arguments repeatable locations : List Lexeme}
    (hdescription : description.map (·.unplaced) = d.description.map (·.unplaced))
    (harguments : ArgumentsWritten d.arguments arguments)
    (hrepeatable : RepeatableWritten d.repeatable repeatable)
    (hlocations : Separated .pipe Location.text d.locations locations) :
    (readDirectiveDefinition description).Reads
      (keyword .directive :: mark .atSign :: word d.name.text ::
        (arguments ++ (repeatable ++ keyword .on :: locations)))
      (Avoids definitionKinds) fun e => e.unplaced = d.unplaced := by
  refine .peek reads_place fun start _ => .token (reads_advance _) fun _ _ => ?_
  refine .token (reads_expect rfl) fun _ _ => .token (reads_readName d.name) fun name hname => ?_
  -- Arguments and `repeatable` may be missing; the word behind them may not.
  have hon : ∀ rest, Avoids [.punct .parenOpen, .keyword .repeatable]
      (nextKind (keyword .on :: locations ++ rest)) := fun rest => by
    simp [Avoids, nextKind, keyword]
  refine .bind (reads_readArgumentDefinitions harguments) (fun arguments hargs => ?_) fun rest _ => ?_
  · refine .bind (reads_repeatable hrepeatable) (fun repeatable hrep => ?_) fun rest _ =>
      (hon rest).mono (by decide)
    refine .token (reads_expect rfl) fun _ _ => .assoc ?_
    refine .last ((reads_locations hlocations).avoiding (by decide)) fun locations hlocs => ?_
    refine .spanned fun span => ?_
    simp only [DirectiveDefinition.unplaced, hdescription, hname, hargs, hrep, hlocs]
  · rw [List.append_assoc]
    exact hrepeatable.offers.avoids (hon rest) (by decide)

end ResolverContracts
