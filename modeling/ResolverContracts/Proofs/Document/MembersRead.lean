import ResolverContracts.Proofs.Document.PartsRead
/-!
# Directives, arguments and fields, read back

The parts of definitions that consist of other parts, most of which may be missing. Each part has a
token of its own to start with, so that the reader of the part before sees it coming: the proofs put
these parts together and show for each that what follows starts with none of the tokens by which the
part before could go on.
-/

set_option autoImplicit false

namespace ResolverContracts

open Reader
open Lexeme (word keyword mark)

/-! ## How parts start -/

theorem Bracketed.offers {α : Type} {opening closing : Punctuator} {W : α → List Lexeme → Prop}
    {xs : List α} {ls : List Lexeme} (h : Bracketed opening closing W xs ls) :
    Offers [.punct opening] ls := by
  cases h with
  | absent => exact offers_nil _
  | present hxs => exact offers_cons (by simp [mark])

theorem Listed.offers {opener : Lexeme} {p : Punctuator} {names : List Name} {ls : List Lexeme}
    (h : Listed opener p names ls) : Offers [opener.kind] ls := by
  cases h with
  | absent => exact offers_nil _
  | present h => exact offers_cons (by simp)

theorem DefaultWritten.offers {v : Option Value} {ls : List Lexeme} (h : DefaultWritten v ls) :
    Offers [.punct .equals] ls := by
  cases h with
  | absent => exact offers_nil _
  | present h => exact offers_cons (by simp [mark])

theorem offers_directives {ds : List Directive} {ls : List Lexeme}
    (h : Row Directive.Written ds ls) : Offers [.punct .atSign] ls := by
  cases h with
  | nil => exact offers_nil _
  | cons hd hds =>
    cases hd with
    | parts harguments => exact offers_cons (by simp [mark])

/-- What has a description in front starts with a string, or with what the description is about. -/
theorem DescriptionWritten.startsAs {d : Option Description} {ls more : List Lexeme} {l : Lexeme}
    {S : TokenKind → Prop} (h : DescriptionWritten d ls) (hstring : ∀ k ∈ stringKinds, S k)
    (hl : S l.kind) : StartsAs S (ls ++ l :: more) := by
  cases h with
  | absent => exact ⟨l, more, rfl, hl⟩
  | present h => exact ⟨_, _, rfl, hstring _ h.kind⟩

/-! ## Directives -/

/-- Nothing has to be known of what follows an argument: the constant at its end is read to its last
token, and no token goes on with it. -/
theorem reads_readArgument {a : Argument} {ls : List Lexeme} (h : a.Written ls) :
    readArgument.Reads ls Anything fun b => b.unplaced = a.unplaced := by
  obtain ⟨hvalue⟩ := h
  refine .peek reads_place fun start _ => .token (reads_readName a.name) fun name hname => ?_
  refine .token (reads_expect rfl) fun _ _ => .last (reads_readValue a.value _ hvalue) ?_
  refine fun value hv => .spanned fun span => ?_
  simp only [Argument.unplaced, hname, hv]

/-- The arguments of a directive. Another opening bracket must not follow where they are left out. -/
theorem reads_arguments {as : List Argument} {ls : List Lexeme}
    (h : Bracketed .parenOpen .parenClose Argument.Written as ls) :
    (optionalItems .parenOpen .parenClose readArgument).Reads ls (Avoids [.punct .parenOpen])
      fun bs => bs.map (·.unplaced) = as.map (·.unplaced) := by
  refine reads_optionalItems (F := Anything) h (fun a _ us hus => reads_readArgument hus)
    (fun a _ us hus => ?_) trivial
  obtain ⟨-⟩ := hus
  exact ⟨_, _, rfl, Lexeme.kind_word_ne_punct _ _, trivial⟩

/-- The kinds of tokens by which directives go on. -/
def directiveKinds : List TokenKind := [.punct .atSign, .punct .parenOpen]

/-- Directives go on with a mark or with the arguments of the last one, so what follows must be
neither. -/
theorem reads_readDirectives {ds : List Directive} {ls : List Lexeme}
    (h : Row Directive.Written ds ls) :
    readDirectives.Reads ls (Avoids directiveKinds)
      fun es => es.map (·.unplaced) = ds.map (·.unplaced) := by
  refine (reads_eachAfter (F := Avoids [.punct .parenOpen]) h (fun d _ us hus => ?_)
    (by decide)).before fun k hk => ?_
  · obtain ⟨harguments⟩ := hus
    refine ⟨_, rfl, fun start => .token (reads_readName d.name) fun name hname => ?_⟩
    refine .last (reads_arguments harguments) fun arguments hargs => .spanned fun span => ?_
    simp only [Directive.unplaced, hname, hargs]
  · exact ⟨hk.mono (by decide), fun heq => hk (by simp [directiveKinds, heq])⟩

/-! ## Fields, arguments and enum values -/

/-- The kinds of tokens by which a member of a definition goes on. -/
def memberKinds : List TokenKind := .punct .bang :: .punct .equals :: directiveKinds

/-- The kinds of tokens that a member starts with. -/
def OpensMember (k : TokenKind) : Prop := k ∈ stringKinds ∨ k.isName = true

/-- A member never starts with a mark, so the mark that closes its brackets is not taken for one. -/
theorem OpensMember.not_punct {k : TokenKind} (h : OpensMember k) (p : Punctuator) :
    k ≠ .punct p := by
  rintro rfl
  simp [OpensMember, stringKinds, TokenKind.isName] at h

/-- Behind a member another one may follow. -/
theorem OpensMember.avoids {k : TokenKind} (h : OpensMember k) : Avoids memberKinds k := by
  intro hk
  simp only [memberKinds, directiveKinds, List.mem_cons, List.not_mem_nil, or_false] at hk
  obtain hk | hk | hk | hk := hk <;> exact h.not_punct _ hk

theorem DescriptionWritten.opensMember {d : Option Description} {ls : List Lexeme}
    (h : DescriptionWritten d ls) (text : String) (more : List Lexeme) :
    StartsAs OpensMember (ls ++ word text :: more) :=
  h.startsAs (fun _ hk => .inl hk) (.inr (Lexeme.isName_word text))

/-- Behind a description stands a word. -/
theorem avoids_stringKinds_word (text : String) : Avoids stringKinds (word text).kind :=
  avoids_word text (by decide)

/-- A default, if there is one, and what stands behind it. -/
theorem reads_default {β : Type} {v : Option Value} {ls more : List Lexeme}
    (h : DefaultWritten v ls) {next : Option Value → Reader β} {G : TokenKind → Prop} {Q : β → Prop}
    (hnext : ∀ w, w.map (·.unplaced) = v.map (·.unplaced) → (next w).Reads more G Q)
    (hfollow : ∀ rest, G (nextKind rest) → Avoids [.punct .equals] (nextKind (more ++ rest))) :
    Reads (do
      let default ← if ← eat (.punct .equals) then some <$> (readValue : Reader Value) else pure none
      next default) (ls ++ more) G Q := by
  cases h with
  | absent =>
    refine .bind (reads_eat_avoided _) (fun given hgiven => ?_) hfollow
    subst hgiven
    exact hnext none rfl
  | present hv =>
    refine .token (reads_eat rfl) fun given hgiven => ?_
    subst hgiven
    exact .bind (.mapSome (reads_readValue _ _ hv)) (fun w hw => hnext w hw) fun _ _ => trivial

/-- Behind the type come a default and directives, each of which may be missing. Whatever is there next
is none of the tokens by which the type would go on. -/
theorem reads_readInputDefinition {d : InputDefinition} {ls : List Lexeme} (h : d.Written ls) :
    readInputDefinition.Reads ls (Avoids memberKinds) fun e => e.unplaced = d.unplaced := by
  obtain ⟨hdescription, htype, hdefault, hdirectives⟩ := h
  refine .bind (reads_readDescription hdescription) (fun description hdesc => ?_)
    fun _ _ => avoids_stringKinds_word _
  refine .peek reads_place fun start _ => .token (reads_readName d.name) fun name hname => ?_
  refine .token (reads_expect rfl) fun _ _ => .bind (reads_readType htype) (fun type ht => ?_)
    fun rest hrest => ?_
  · refine reads_default hdefault (fun default hdef => ?_) fun rest hrest => ?_
    · refine .last ((reads_readDirectives hdirectives).avoiding (by decide))
        fun directives hdirs => .spanned fun span => ?_
      simp only [InputDefinition.unplaced, hdesc, hname, ht, hdef, hdirs]
    · exact (offers_directives hdirectives).avoids hrest (by decide)
  · exact (hdefault.offers.append (offers_directives hdirectives)).avoids hrest (by decide)

/-- Members in brackets, each of which starts with a string or a word. -/
theorem reads_members {α β γ : Type} {f : α → γ} {g : β → γ} {W : β → List Lexeme → Prop}
    {opening closing : Punctuator} {xs : List β} {ls : List Lexeme} {item : Reader α}
    (h : Bracketed opening closing W xs ls)
    (hitem : ∀ x us, W x us → item.Reads us (Avoids memberKinds) fun a => f a = g x)
    (hopen : ∀ x us, W x us → StartsAs OpensMember us) (hclose : .punct closing ∉ memberKinds) :
    (optionalItems opening closing item).Reads ls (Avoids [.punct opening])
      fun as => as.map f = xs.map g :=
  reads_optionalItems h (fun x _ us hus => hitem x us hus)
    (fun x _ us hus => (hopen x us hus).mono fun _ hk => ⟨hk.not_punct _, hk.avoids⟩) hclose

theorem InputDefinition.Written.opensMember {d : InputDefinition} {ls : List Lexeme}
    (h : d.Written ls) : StartsAs OpensMember ls := by
  obtain ⟨hdescription, -, -, -⟩ := h
  exact hdescription.opensMember _ _

theorem reads_readArgumentDefinitions {ds : List InputDefinition} {ls : List Lexeme}
    (h : ArgumentsWritten ds ls) :
    readArgumentDefinitions.Reads ls (Avoids [.punct .parenOpen])
      fun es => es.map (·.unplaced) = ds.map (·.unplaced) :=
  reads_members h (fun _ _ => reads_readInputDefinition) (fun _ _ hus => hus.opensMember)
    (by decide)

theorem reads_readFieldDefinition {d : FieldDefinition} {ls : List Lexeme} (h : d.Written ls) :
    readFieldDefinition.Reads ls (Avoids memberKinds) fun e => e.unplaced = d.unplaced := by
  obtain ⟨hdescription, harguments, htype, hdirectives⟩ := h
  refine .bind (reads_readDescription hdescription) (fun description hdesc => ?_)
    fun _ _ => avoids_stringKinds_word _
  refine .peek reads_place fun start _ => .token (reads_readName d.name) fun name hname => ?_
  -- The colon is always there, so it is seen whether arguments follow the name.
  refine .bind (reads_readArgumentDefinitions harguments) (fun arguments hargs => ?_)
    fun _ _ => by simp [Avoids, nextKind, mark]
  refine .token (reads_expect rfl) fun _ _ => .bind (reads_readType htype) (fun type ht => ?_)
    fun rest hrest => (offers_directives hdirectives).avoids hrest (by decide)
  refine .last ((reads_readDirectives hdirectives).avoiding (by decide)) fun directives hdirs => ?_
  refine .spanned fun span => ?_
  simp only [FieldDefinition.unplaced, hdesc, hname, hargs, ht, hdirs]

theorem FieldDefinition.Written.opensMember {d : FieldDefinition} {ls : List Lexeme}
    (h : d.Written ls) : StartsAs OpensMember ls := by
  obtain ⟨hdescription, -, -, -⟩ := h
  exact hdescription.opensMember _ _

/-- An enum value is read back if its name is none of the constants `true`, `false` and `null`. -/
theorem reads_readEnumValue {d : EnumValueDefinition} {ls : List Lexeme} (h : d.Written ls) :
    readEnumValue.Reads ls (Avoids memberKinds) fun e => e.unplaced = d.unplaced := by
  obtain @⟨_, ls, hdescription, hconstant, hdirectives⟩ := h
  refine .bind (reads_readDescription hdescription) (fun description hdesc => ?_)
    fun _ _ => avoids_stringKinds_word _
  refine .peek reads_place fun start _ => .look fun t ht => ?_
  have hread : Reads (do
      let name ← readName
      let directives ← readDirectives
      return EnumValueDefinition.mk description name directives (← spanFrom start))
      (word d.name.text :: ls) (Avoids memberKinds) fun e => e.unplaced = d.unplaced := by
    refine .token (reads_readName d.name) fun name hname => ?_
    refine .last ((reads_readDirectives hdirectives).avoiding (by decide)) fun directives hdirs => ?_
    refine .spanned fun span => ?_
    simp only [EnumValueDefinition.unplaced, hdesc, hname, hdirs]
  -- The word is none of the constants, so nothing is reported in front of it.
  have hword : t.kind = .ofWord d.name.text := Token.kind_eq ht
  obtain hname | ⟨k, hname, hk⟩ := TokenKind.ofWord_of_not_mem_constantWords hconstant
  · rw [hword, hname]
    exact hread
  · rw [hword, hname]
    cases k <;> first | exact hread | simp at hk

theorem EnumValueDefinition.Written.opensMember {d : EnumValueDefinition} {ls : List Lexeme}
    (h : d.Written ls) : StartsAs OpensMember ls := by
  obtain ⟨hdescription, -, -⟩ := h
  exact hdescription.opensMember _ _

end ResolverContracts
