import ResolverContracts.Proofs.Document.Closes
/-!
# Definitions that end with a brace

A definition read in front of a text that ends with a closing brace is read the same where the text
goes on (`closes_readDefinition`). If it is the last one, its block ends with the brace, or it has no
block and the brace cannot be its last token.
-/

set_option autoImplicit false

namespace ResolverContracts

open Reader
open Lexeme (word keyword mark)

variable {s : Surroundings}

/-! ## Type definitions -/

theorem unclosed_name {n : Name} {ls : List Lexeme} (h : ls = [word n.text]) : Unclosed ls :=
  h ▸ .word unclosed_nil

theorem closes_readFieldedType (description : Option Description) (start : Nat)
    {body : List Name → List FieldDefinition → TypeBody}
    (hbody : ∀ ns fs, body (ns.map (·.move s.place)) (fs.map (·.move s.place)) =
      (body ns fs).move s.place) :
    (readFieldedType description start body).Closes s (·.move s.place)
      (readFieldedType (description.map (·.move s.place)) (s.place start) body) := by
  refine .front matches_readName accounts_readName (fun _ _ => unclosed_name) fun name => ?_
  refine .front (matches_listed _ _) accounts_readImplements
    (fun _ _ h => h.unclosed nofun nofun) fun implements => ?_
  refine .front matches_readDirectives accounts_readDirectives
    (fun _ _ => unclosed_directives) fun directives => ?_
  refine .spanned (closes_block matches_readFieldDefinition accounts_readFieldDefinition
    fun _ h => h.opensMember.ne_nil rfl) fun fields span => ?_
  rw [hbody]
  rfl

theorem closes_readPlainType (description : Option Description) (start : Nat)
    {body : Reader TypeBody} (hbody : body.Closes s (·.move s.place) body) :
    (readPlainType description start body).Closes s (·.move s.place)
      (readPlainType (description.map (·.move s.place)) (s.place start) body) := by
  refine .front matches_readName accounts_readName (fun _ _ => unclosed_name) fun name => ?_
  refine .front matches_readDirectives accounts_readDirectives
    (fun _ _ => unclosed_directives) fun directives => ?_
  exact .spanned hbody fun body span => rfl

/-- The members of a union do not end with a brace. -/
theorem closes_readMembers : readMembers.Closes s (·.map (·.move s.place)) readMembers :=
  .unclosed (matches_listed _ _) accounts_readMembers fun _ _ h => h.unclosed nofun nofun

/-- Without a keyword there is a fault in the first text, so nothing has to be shown of the second. -/
theorem closes_readTypeDefinition (description : Option Description) :
    (readTypeDefinition description).Closes s (Option.map (·.move s.place))
      (readTypeDefinition (description.map (·.move s.place))) := by
  refine .look (accounts_readTypeDefinition.imp fun _ _ _ => trivial) ?_
  intro c d hc hclosed hcd hfaults
  have hkind : c.kind = c.current.kind := rfl
  have hnone : Step.Accounts ((do complain .typeDefinition; return none :
      Reader (Option TypeDefinition)) c) fun _ _ => False :=
    Accounts.reportedAt hc _ (.pure trivial)
  rw [Token.kind_move]
  revert hfaults
  cases hk : c.current.kind with
  | keyword k =>
    rw [hk] at hkind
    have htaken {r r' : Reader TypeDefinition} (h : r.Closes s (·.move s.place) r')
        (hfaults : ((do advance; some <$> r : Reader (Option TypeDefinition)) c).1.2.faults = c.faults) :
        ((do advance; some <$> r : Reader _) c).Follows s (Option.map (·.move s.place))
          ((do advance; some <$> r' : Reader _) d) :=
      Closes.taken hc hclosed hcd (by simp [hkind]) (by simp [hkind]) (.map h fun _ => rfl) hfaults
    cases k
    case type => exact htaken (closes_readFieldedType _ _ fun _ _ => rfl)
    case interface => exact htaken (closes_readFieldedType _ _ fun _ _ => rfl)
    case union => exact htaken (closes_readPlainType _ _ (.map closes_readMembers fun _ => rfl))
    case enum =>
      exact htaken (closes_readPlainType _ _ (.map (closes_block matches_readEnumValue
        accounts_readEnumValue fun _ h => h.opensMember.ne_nil rfl) fun _ => rfl))
    case input =>
      exact htaken (closes_readPlainType _ _ (.map (closes_block matches_readInputDefinition
        accounts_readInputDefinition fun _ h => h.opensMember.ne_nil rfl) fun _ => rfl))
    case scalar => exact htaken (closes_readPlainType _ _ (.pure rfl))
    all_goals exact follows_of_fault hnone
  | _ => exact follows_of_fault hnone

/-! ## Schema blocks and directive definitions -/

section Blocks

variable {c d : Cursor} {description : Option Description} {start : Nat}

/-- A schema block from its keyword on. -/
theorem follows_readSchemaDefinition (hc : c.Scanned) (hclosed : c.Closed) (hcd : c.Follows s d)
    (hkind : c.kind = .keyword .schema)
    (hfaults : (readSchemaDefinition description start c).1.2.faults = c.faults) :
    (readSchemaDefinition description start c).Follows s (·.move s.place)
      (readSchemaDefinition (description.map (·.move s.place)) (s.place start) d) := by
  refine Closes.taken hc hclosed hcd (by simp [hkind]) (by simp [hkind]) ?_ hfaults
  refine .front matches_readDirectives accounts_readDirectives
    (fun _ _ => unclosed_directives) fun directives => ?_
  refine .spanned (closes_block matches_readRootBinding accounts_readRootBinding ?_)
    fun operations span => ?_
  · rintro o ⟨b, -, hb⟩
    cases hb
  · simp only [SchemaDefinition.move, filterMap_option_map]

/-- Any description can be written. What follows it is unclosed on its own account. -/
theorem exists_descriptionWritten (description : Option Description) :
    ∃ us, DescriptionWritten description us := by
  cases description with
  | none => exact ⟨_, .absent⟩
  | some d => exact ⟨_, .present .string⟩

theorem Unclosed.of_append {us ls : List Lexeme} (h : Unclosed (us ++ ls)) : Unclosed ls := by
  intro hlast
  rw [Unclosed, List.getLast?_append, hlast] at h
  exact h rfl

/-- A directive definition does not end with a brace. -/
theorem follows_readDirectiveDefinition (hc : c.Scanned) (hclosed : c.Closed) (hcd : c.Follows s d)
    (hkind : c.kind = .keyword .directive)
    (hfaults : (readDirectiveDefinition description c).1.2.faults = c.faults) :
    (readDirectiveDefinition description c).Follows s (·.move s.place)
      (readDirectiveDefinition (description.map (·.move s.place)) d) := by
  refine matches_readDirectiveDefinition description c d hcd (closed_behind hclosed
    (accounts_readDirectiveDefinition hc hkind) (fun x ls hls => ?_) hfaults).sees
  obtain ⟨us, hus⟩ := exists_descriptionWritten description
  exact (hls us hus).unclosed.of_append

end Blocks

/-! ## Definitions -/

theorem closes_readExtension (start : Nat) :
    (readExtension start).Closes s (Option.map (·.move s.place)) (readExtension (s.place start)) := by
  refine .look ((accounts_readExtension start).imp fun _ _ _ => trivial) ?_
  intro c d hc hclosed hcd hfaults
  rw [Token.kind_move]
  revert hfaults
  by_cases hk : c.current.kind = .keyword .schema
  · rw [if_pos hk, if_pos hk]
    intro hfaults
    obtain ⟨hanswer, hcursor⟩ :=
      @follows_readSchemaDefinition s c d none start hc hclosed hcd hk hfaults
    exact ⟨congrArg (some ∘ Definition.schemaExtension) hanswer, hcursor⟩
  · rw [if_neg hk, if_neg hk]
    refine (Closes.answer (closes_readTypeDefinition none) fun o => ?_).follows c d hc hclosed hcd
    cases o <;> rfl

/-- A description is read without a fault. -/
theorem faults_readDescription (c : Cursor) : (readDescription c).1.2.faults = c.faults := by
  unfold readDescription
  rw [current_bind]
  cases c.current.contents? <;> rfl

/-- An executable definition is a fault, and a definition without one closes as its reader does. -/
theorem closes_readDefinition :
    readDefinition.Closes s (Option.map (·.move s.place)) readDefinition where
  accounts := accounts_readDefinition.imp fun _ _ _ => trivial
  follows c d hc hclosed hcd := by
    refine bind_follows hc hclosed (accounts_readDescription c hc) (fun _ _ h => h.unclosed)
      (matches_readDescription c d hcd) (faults_readDescription c) ?_
    -- No description ends with the brace, so it is still ahead behind the description.
    clear hc hclosed hcd c d
    intro description c d hc hclosed hcd
    have hkind : c.kind = c.current.kind := rfl
    have hnone : Step.Accounts ((do complain .definition; return none :
        Reader (Option Definition)) c) fun _ _ => False :=
      Accounts.reportedAt hc _ (.pure trivial)
    refine look_follows hclosed hcd ?_
    rw [Token.kind_move]
    cases hk : c.current.kind with
    | keyword k =>
      rw [hk] at hkind
      have htype : ((do return (← readTypeDefinition description).map .type :
          Reader (Option Definition)) c).1.2.faults = c.faults →
          ((do return (← readTypeDefinition description).map .type :
            Reader (Option Definition)) c).Follows s (Option.map (·.move s.place))
          ((do return (← readTypeDefinition (description.map (·.move s.place))).map .type :
            Reader (Option Definition)) d) :=
        (Closes.answer (closes_readTypeDefinition description) fun o => by cases o <;> rfl).follows
          c d hc hclosed hcd
      cases k
      case schema =>
        intro hfaults
        obtain ⟨hanswer, hcursor⟩ := follows_readSchemaDefinition hc hclosed hcd hkind hfaults
        exact ⟨congrArg (some ∘ Definition.schema) hanswer, hcursor⟩
      case directive =>
        intro hfaults
        obtain ⟨hanswer, hcursor⟩ := follows_readDirectiveDefinition hc hclosed hcd hkind hfaults
        exact ⟨congrArg (some ∘ Definition.directive) hanswer, hcursor⟩
      case extend =>
        cases description with
        | none =>
          exact Closes.taken hc hclosed hcd (by simp [hkind]) (by simp [hkind])
            (closes_readExtension c.current.span.start)
        | some description =>
          refine follows_of_fault (Accounts.reportedAt hc _ <| .bind accounts_advance fun _ => ?_)
          exact (accounts_readExtension c.current.span.start).imp fun _ _ _ _ _ => trivial
      all_goals
        first
        | exact htype
        | exact follows_of_fault (accounts_executable hc)
        | exact follows_of_fault hnone
    | punct p =>
      cases p <;>
        first | exact follows_of_fault (accounts_executable hc) | exact follows_of_fault hnone
    | _ => exact follows_of_fault hnone

end ResolverContracts
