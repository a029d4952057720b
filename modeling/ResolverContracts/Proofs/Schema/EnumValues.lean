import ResolverContracts.Proofs.Document.EveryToken
import ResolverContracts.Proofs.Document.Marks
import ResolverContracts.Proofs.Schema.Loaded
/-!
# The values of a loaded enum

A text that loads has no faults, so its tokens are a writing of its document. The name of each enum
value is therefore one of the tokens (`Document.Written.mem_word_of_mem_values`), and a token that is a
word is spelled like one. So an enum of a loaded catalogue has words as its values, and no others
(`Catalogue.isWord_of_load`).
-/

set_option autoImplicit false

namespace ResolverContracts

open Lexeme (word)

/-! ## From a writing to a word -/

section Rows

variable {α : Type} {W : α → List Lexeme → Prop} {xs : List α} {ls : List Lexeme}

/-- An element of a row is written within the row. -/
theorem Row.exists_subset_of_mem (h : Row W xs ls) {x : α} (hx : x ∈ xs) :
    ∃ us, W x us ∧ us ⊆ ls := by
  induction h with
  | nil => exact absurd hx List.not_mem_nil
  | cons hw _ ih =>
    rcases List.mem_cons.mp hx with rfl | hx
    · exact ⟨_, hw, List.subset_append_left _ _⟩
    · obtain ⟨us, hus, hsub⟩ := ih hx
      exact ⟨us, hus, List.subset_append_of_subset_right _ hsub⟩

theorem Bracketed.exists_subset_of_mem {opening closing : Punctuator}
    (h : Bracketed opening closing W xs ls) {x : α} (hx : x ∈ xs) : ∃ us, W x us ∧ us ⊆ ls := by
  cases h with
  | absent => exact absurd hx List.not_mem_nil
  | present hrow =>
    obtain ⟨us, hus, hsub⟩ := hrow.exists_subset_of_mem hx
    exact ⟨us, hus, List.subset_cons_of_subset _ (List.subset_append_of_subset_left _ hsub)⟩

end Rows

variable {ls : List Lexeme}

/-- The name of a value is written as a word. -/
theorem TypeBody.mem_word_of_mem_values {b : TypeBody} (h : b.MembersWritten ls)
    {v : EnumValueDefinition} (hv : v ∈ b.values) : word v.name.text ∈ ls := by
  cases b with
  | enum values =>
    have h : Bracketed .braceOpen .braceClose EnumValueDefinition.Written values ls := h
    obtain ⟨us, hus, hsub⟩ := h.exists_subset_of_mem hv
    obtain ⟨_, _, _⟩ := hus
    exact hsub (List.mem_append_right _ List.mem_cons_self)
  | _ => exact absurd hv List.not_mem_nil

/-- The body of a definition is written within it. -/
theorem Definition.Written.exists_membersWritten {x : Definition} (h : x.Written ls) {b : TypeBody}
    (hb : x.body? = some b) : ∃ us, b.MembersWritten us ∧ us ⊆ ls := by
  have hwithin {d : TypeDefinition} {ls : List Lexeme} (hd : d.Written ls) :
      ∃ us, d.body.MembersWritten us ∧ us ⊆ ls := by
    obtain ⟨_, _, _, hmembers⟩ := hd
    exact ⟨_, hmembers, fun l hl => by simp [hl]⟩
  cases h with
  | type hd =>
    obtain rfl := Option.some.inj hb
    exact hwithin hd
  | typeExtension _ hd =>
    obtain rfl := Option.some.inj hb
    obtain ⟨us, hus, hsub⟩ := hwithin hd
    exact ⟨us, hus, List.subset_cons_of_subset _ hsub⟩
  | schema => cases hb
  | schemaExtension => cases hb
  | directive => cases hb

theorem Document.Written.mem_word_of_mem_values {d : Document} (h : d.Written ls) {b : TypeBody}
    (hb : b ∈ Definitions.bodies d.definitions) {v : EnumValueDefinition} (hv : v ∈ b.values) :
    word v.name.text ∈ ls := by
  obtain ⟨x, hx, hxb⟩ := Definitions.exists_of_mem_bodies hb
  obtain ⟨us, hus, hsub⟩ := Row.exists_subset_of_mem h hx
  obtain ⟨vs, hvs, hsub'⟩ := hus.exists_membersWritten hxb
  exact hsub (hsub' (TypeBody.mem_word_of_mem_values hvs hv))

/-! ## From a word to its spelling -/

/-- A word that is spelled as one has the characters of one. -/
theorem Lexeme.isWord_of_isSpelled_word {text : String} (h : (word text).IsSpelled) :
    isWord text = true := by
  have hspelled : Spelled (.ofWord text) text.toList := h
  have hname : (TokenKind.ofWord text).isName = true := isName_word text
  rw [isWord]
  generalize TokenKind.ofWord text = kind at hspelled hname
  generalize text.toList = cs at hspelled
  cases hspelled with
  | word hc hcs => exact Bool.and_eq_true_iff.mpr ⟨hc, List.all_eq_true.mpr hcs⟩
  | _ => simp [TokenKind.isName] at hname

/-- A text that loads has no faults at all. -/
theorem Catalogue.written_of_load {text : String} {c : Catalogue} (h : load text = .ok c) :
    (Document.parse text).document.Written (Lexed.ofText text).lexemes := by
  rw [← Document.parse_diagnostics_eq_empty_iff]
  by_contra hfaults
  rw [load, if_pos (Parsed.hasErrors_of_ne_empty hfaults)] at h
  cases h

/-- **Values are words.** A value of an enum of a loaded catalogue is a word. -/
theorem Catalogue.isWord_of_load {text : String} {c : Catalogue} (h : load text = .ok c)
    {name value : String} {values : List String} (he : (name, values) ∈ c.enums)
    (hv : value ∈ values) : isWord value = true := by
  have hwritten := written_of_load h
  obtain ⟨hvalid, rfl⟩ := load_eq_ok h
  rw [Document.lower_eq_of_valid hvalid] at he
  obtain ⟨d, hd, hshape⟩ := Definitions.exists_of_mem_entries (mem_enums_iff.mp he)
  rw [TypeShape.enum.inj hshape] at hv
  obtain ⟨v, hvalue, rfl⟩ := List.mem_map.mp hv
  obtain ⟨b, hb, hvb⟩ := List.mem_flatMap.mp hvalue
  rcases Definitions.mem_bodies_of_mem_bodiesOf hd hb with rfl | hb
  · exact absurd hvb List.not_mem_nil
  · have hmem := hwritten.mem_word_of_mem_values hb hvb
    have hscanned : (word v.name.text).IsScanned := isScanned_lexemesFrom 0 text.toList _ hmem
    exact Lexeme.isWord_of_isSpelled_word (hscanned.isSpelled (kind_word_ne_stray _))

end ResolverContracts
