import ResolverContracts.Proofs.Contract.EnumMembers
import ResolverContracts.Proofs.Contract.Parts
import ResolverContracts.Proofs.Schema.EnumValues
/-!
# The identifiers of an enum

Whether the members of an enum can be written with their identifiers. The values of a loaded enum are
words, and the Pascal case of a word has no character that could not stand in an identifier. It may
begin with a digit, though, and it may be empty: an underscore is kept in front of a digit only behind
another word. So the identifier of `_1` is `1`, and that of `_` is nothing. `identifiers_of_load` says
that these two are all that can go wrong.
-/

set_option autoImplicit false

namespace ResolverContracts

/-- A word is made of plain letters, digits and underscores. -/
theorem isPlain_of_isWord {text : String} (h : isWord text = true) : IsPlain text := by
  intro x hx
  rw [isWord] at h
  cases hcs : text.toList with
  | nil =>
    rw [hcs] at hx
    exact absurd hx List.not_mem_nil
  | cons c cs =>
    rw [hcs] at h hx
    simp only [isNameStart, isNameChar, Char.isAlphanum, Bool.and_eq_true, Bool.or_eq_true,
      beq_iff_eq, List.all_eq_true] at h
    rcases List.mem_cons.mp hx with rfl | hx
    · exact h.1.imp_left fun halpha => by simp [Char.isAlphanum, halpha]
    · exact (h.2 x hx).imp_left fun halphanum => by simpa [Char.isAlphanum] using halphanum

namespace DeclarationSet.Parts

/-- The enums of a module are those the user does not replace, with a member for each value. -/
theorem MadeFrom.mem_enum_iff {s : Parts} {p : Project} {set : DeclarationSet} (hs : s.MadeFrom p set)
    {name : String} {members : List EnumMember} : .enum name members ∈ set.declarations ↔
      ∃ values, (name, values) ∈ p.catalogue.enums ∧ p.overrides.enumValues.get? name = none ∧
        members = values.map .ofValue := by
  rw [hs.mem_iff]
  constructor
  · rintro ⟨⟩
    rename_i h
    obtain ⟨⟨name', values⟩, he, henum⟩ := exists_left_of_forall₂ hs.enums h
    rcases Project.enumDeclaration_cases henum with ⟨_, -, hd⟩ | ⟨_, hnone, hd⟩
    · nomatch hd
    · obtain ⟨rfl, -⟩ := Declaration.enum.inj hd
      rcases Project.enumDeclaration_cases_of_not_replaced values hnone with
        ⟨-, hok⟩ | ⟨_, _, _, _, -, -, herror⟩
      · exact ⟨values, he, hnone, (Declaration.enum.inj (Except.ok.inj (henum.symm.trans hok))).2⟩
      -- A collision would have left no declarations at all.
      · nomatch henum.symm.trans herror
  · rintro ⟨values, he, hnone, rfl⟩
    obtain ⟨d, hd, henum⟩ := exists_right_of_forall₂ hs.enums he
    rcases Project.enumDeclaration_cases_of_not_replaced values hnone with
      ⟨-, hok⟩ | ⟨_, _, _, _, -, -, herror⟩
    · obtain rfl := Except.ok.inj (hok.symm.trans henum)
      exact .enum hd
    · nomatch henum.symm.trans herror

end DeclarationSet.Parts

namespace Project

/-- An enum that the user does not replace is declared with the members for its values and no others.
Their identifiers have no characters but those of identifiers, and one of them is an identifier exactly
if the value goes on with a letter behind the underscores it starts with: otherwise it starts with a
digit, or there is nothing of it. -/
theorem identifiers_of_load {text : String} {c : Catalogue} {overrides : Overrides}
    {set : DeclarationSet} (hc : Catalogue.load text = .ok c)
    (hset : (⟨c, overrides⟩ : Project).declarations = .ok set) {name : String} {values : List String}
    (he : (name, values) ∈ c.enums) (hnone : overrides.enumValues.get? name = none) :
    (∀ members, .enum name members ∈ set.declarations ↔ members = values.map .ofValue) ∧
    ∀ m ∈ values.map EnumMember.ofValue,
      (∀ x ∈ m.identifier.toList, isIdentifierChar x = true) ∧
      (isIdentifier m.identifier.toList = true ↔
        ∃ x, (m.value.toList.dropWhile (· == '_')).head? = some x ∧ x.isAlpha = true) := by
  obtain ⟨s, hs⟩ := declarations_eq_ok hset
  constructor
  · intro members
    rw [hs.mem_enum_iff]
    constructor
    · rintro ⟨values', he', -, rfl⟩
      -- The catalogue has one enum of the name, so its values are these.
      have hsame := (Catalogue.load_wellNamed hc).shape_unique
        (Catalogue.mem_enums_iff.mp he) (Catalogue.mem_enums_iff.mp he')
      rw [TypeShape.enum.inj hsame]
    · rintro rfl
      exact ⟨values, he, hnone, rfl⟩
  · intro m hm
    obtain ⟨value, hvalue, rfl⟩ := List.mem_map.mp hm
    have hplain := isPlain_of_isWord (Catalogue.isWord_of_load hc he hvalue)
    exact ⟨hplain.isIdentifierChar, hplain.isIdentifier_pascalCase_iff⟩

/-- Steps, some of them numbers. -/
def stepText : String := "enum Step { _1 _a B_2 __ } type Query { step: Step }"

theorem load_stepText : ∃ c set, Catalogue.load stepText = .ok c ∧
    (⟨c, .default⟩ : Project).declarations = .ok set ∧
    ("Step", ["_1", "_a", "B_2", "__"]) ∈ c.enums := by
  have heval : ((Catalogue.load stepText).toOption.bind fun c =>
      (⟨c, .default⟩ : Project).declarations.toOption.map fun _ => c.enums) =
      some [("Step", ["_1", "_a", "B_2", "__"])] := by decide +kernel
  obtain ⟨c, set, hc, hset, henums⟩ := exists_ok_of_toOption heval
  exact ⟨c, set, hc, hset, henums ▸ List.mem_singleton_self _⟩

theorem map_ofValue_steps : ["_1", "_a", "B_2", "__"].map EnumMember.ofValue =
    [⟨"1", "_1"⟩, ⟨"A", "_a"⟩, ⟨"B_2", "B_2"⟩, ⟨"", "__"⟩] := by decide +kernel

theorem identifiers_of_load_stepText : ∃ c set, Catalogue.load stepText = .ok c ∧
    (⟨c, .default⟩ : Project).declarations = .ok set ∧
    .enum "Step" [⟨"1", "_1"⟩, ⟨"A", "_a"⟩, ⟨"B_2", "B_2"⟩, ⟨"", "__"⟩] ∈ set.declarations ∧
    isIdentifier (pascalCase "_a").toList = true := by
  obtain ⟨c, set, hc, hset, he⟩ := load_stepText
  obtain ⟨hdeclared, hmembers⟩ := identifiers_of_load hc hset he rfl
  rw [map_ofValue_steps] at hdeclared
  obtain ⟨-, hidentifier⟩ := hmembers (.ofValue "_a") (by decide)
  exact ⟨c, set, hc, hset, (hdeclared _).mpr rfl, hidentifier.mpr ⟨'a', by decide, by decide⟩⟩

/-- It is not true that the members of every enum have identifiers: one of these has the digit `1`. -/
theorem identifiers_of_load_not_all :
    ¬ ∀ (text : String) (c : Catalogue) (overrides : Overrides) (set : DeclarationSet) (name : String)
      (members : List EnumMember), Catalogue.load text = .ok c →
      (⟨c, overrides⟩ : Project).declarations = .ok set →
      overrides.enumValues.get? name = none → .enum name members ∈ set.declarations →
      ∀ m ∈ members, isIdentifier m.identifier.toList = true := by
  intro hall
  obtain ⟨c, set, hc, hset, he⟩ := load_stepText
  obtain ⟨s, hs⟩ := declarations_eq_ok hset
  have hmem : .enum "Step" (["_1", "_a", "B_2", "__"].map EnumMember.ofValue) ∈ set.declarations :=
    hs.mem_enum_iff.mpr ⟨_, he, rfl, rfl⟩
  rw [map_ofValue_steps] at hmem
  have hdigit := hall stepText c .default set "Step" _ hc hset rfl hmem ⟨"1", "_1"⟩ List.mem_cons_self
  exact absurd hdigit (by decide)

end Project

end ResolverContracts
