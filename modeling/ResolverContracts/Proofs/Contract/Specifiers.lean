import ResolverContracts.Proofs.Contract.Uses
/-!
# What an import statement lists

A reference of the user that can be read asks for a symbol under an identifier, and perhaps for another
identifier as its local name; the default export is what it gets for the symbol `default`
(`Symbol.isPlain_of_parse`). So what a statement lists for a reference can be read back: identifiers have
no blanks, and the text up to the first one is the symbol (`Clause.IsPlain.text_injective`).
-/

set_option autoImplicit false

namespace ResolverContracts

/-- What a reference can ask for. -/
inductive Clause.IsPlain : Clause → Prop
  | default : IsPlain .default
  | named {symbol : String} {rename : Option String} (hsymbol : isIdentifier symbol.toList = true)
    (hdefault : symbol ≠ "default") (hrename : ∀ r ∈ rename, isIdentifier r.toList = true) :
    IsPlain (.named symbol rename)

/-! ## Reading references -/

namespace Symbol

variable {path : String} {binding : Binding} {rename : Option String}

/-- The word for the default export is an identifier too, but the clause made of it has no name. -/
theorem isPlain_bindingOf {symbol : String} (hsymbol : isIdentifier symbol.toList = true)
    (hrename : ∀ r ∈ rename, isIdentifier r.toList = true) :
    ((bindingOf symbol).clause rename).IsPlain := by
  rw [bindingOf]
  by_cases hdefault : symbol = "default"
  · rw [if_pos hdefault]
    exact .default
  · rw [if_neg hdefault]
    exact .named hsymbol hdefault hrename

/-- Both names are checked before a symbol is made of them. -/
theorem isPlain_of_ofParts {front behind cs : List Char}
    (h : ofParts front cs behind = .ok (.imported path binding rename)) :
    (binding.clause rename).IsPlain := by
  simp only [ofParts] at h
  generalize splitRename behind = names at h
  obtain ⟨symbol, name⟩ := names
  split at h
  · nomatch h
  split at h
  · nomatch h
  split at h
  · nomatch h
  next hsymbol =>
  split at h
  · nomatch h
  next hname =>
  obtain ⟨rfl, rfl, rfl⟩ := Symbol.imported.inj (Except.ok.inj h)
  have hsymbol : isIdentifier (String.ofList symbol).toList = true := by
    rw [String.toList_ofList]
    simpa using hsymbol
  refine isPlain_bindingOf hsymbol fun r hr => ?_
  obtain ⟨cs, rfl, rfl⟩ := Option.map_eq_some_iff.mp hr
  rw [String.toList_ofList]
  simpa using hname

theorem isPlain_of_ofTrimmed {cs : List Char} (h : ofTrimmed cs = .ok (.imported path binding rename)) :
    (binding.clause rename).IsPlain := by
  unfold ofTrimmed at h
  split at h
  · nomatch h
  · split at h
    · exact isPlain_of_ofParts h
    · nomatch h
  · split at h
    · exact isPlain_of_ofParts h
    · nomatch h

/-- Blanks around a reference make no difference to what its clause is. -/
theorem isPlain_of_parse {text : String} (h : parse text = .ok (.imported path binding rename)) :
    (binding.clause rename).IsPlain := by
  simp only [parse] at h
  split at h
  next symbol hsymbol =>
    obtain rfl := Except.ok.inj h
    exact isPlain_of_ofTrimmed hsymbol
  · nomatch h

end Symbol

/-! ## Reading what is listed -/

/-- An identifier has no blank in it, so a clause can be taken apart at the first one. -/
theorem forall_ne_blank_of_isIdentifier {cs : List Char} (h : isIdentifier cs = true) :
    ∀ c ∈ cs, (c != ' ') = true := by
  intro c hc
  rw [bne_iff_ne]
  rintro rfl
  match cs with
  | [] => exact absurd hc List.not_mem_nil
  | d :: ds =>
    rw [isIdentifier, Bool.and_eq_true, List.all_eq_true] at h
    rcases List.mem_cons.mp hc with rfl | hc
    · exact absurd h.1 (by decide)
    · exact absurd (h.2 ' ' hc) (by decide)

namespace Clause

/-- What stands behind the symbol in what is listed for it. -/
def tail (rename : Option String) : List Char :=
  match rename with
  | none => []
  | some r => ' ' :: 'a' :: 's' :: ' ' :: r.toList

theorem tail_injective {r r' : Option String} (h : tail r = tail r') : r = r' := by
  cases r with
  | none =>
    cases r' with
    | none => rfl
    | some r' => nomatch h
  | some r =>
    cases r' with
    | none => nomatch h
    | some r' =>
      simp only [tail, List.cons.injEq, true_and] at h
      rw [String.toList_injective h]

theorem toList_text_named (symbol : String) (rename : Option String) :
    (named symbol rename).text.toList = symbol.toList ++ tail rename := by
  cases rename with
  | none => exact (List.append_nil _).symm
  | some r => simp [text, tail]

/-- The symbol ends at the first blank. -/
theorem takeWhile_text_named {symbol : String} (hsymbol : isIdentifier symbol.toList = true)
    (rename : Option String) :
    (named symbol rename).text.toList.takeWhile (· != ' ') = symbol.toList := by
  rw [toList_text_named, List.takeWhile_append_of_pos (forall_ne_blank_of_isIdentifier hsymbol)]
  cases rename with
  | none => exact List.append_nil _
  | some r => exact List.append_nil _

/-- **What is listed.** Symbols that are listed alike are the same, and so are their local names. -/
theorem IsPlain.text_injective {c d : Clause} (hc : c.IsPlain) (hd : d.IsPlain)
    (h : c.text = d.text) : c = d := by
  have hdefault {symbol : String} {rename : Option String}
      (hsymbol : isIdentifier symbol.toList = true) (hne : symbol ≠ "default") :
      Clause.default.text ≠ (Clause.named symbol rename).text := by
    intro h
    have hfirst := takeWhile_text_named hsymbol rename
    rw [← h] at hfirst
    exact hne (String.toList_injective hfirst.symm)
  -- Up to the first blank the symbols agree, and then so do the renames behind them.
  cases hc with
  | default =>
    cases hd with
    | default => rfl
    | named hsymbol hne => exact absurd h (hdefault hsymbol hne)
  | @named symbol rename hsymbol hne =>
    cases hd with
    | default => exact absurd h.symm (hdefault hsymbol hne)
    | @named symbol' rename' hsymbol' =>
      obtain rfl : symbol = symbol' := by
        apply String.toList_injective
        rw [← takeWhile_text_named hsymbol rename, ← takeWhile_text_named hsymbol' rename', h]
      have hbehind : symbol.toList ++ tail rename = symbol.toList ++ tail rename' := by
        rw [← toList_text_named, ← toList_text_named, h]
      rw [tail_injective (List.append_cancel_left hbehind)]

end Clause

/-! ## References of the user -/

/-- A symbol as it is read from a text, where it stands for a type. -/
def External.FromReference (target : External) : Prop :=
  ∃ text symbol typeName, Symbol.parse text = .ok symbol ∧ target = symbol.toExternal typeName

namespace External.FromReference

variable {target : External} {e : ImportEntry}

theorem stands (h : target.FromReference) : target.Stands := by
  obtain ⟨_, symbol, typeName, -, rfl⟩ := h
  exact ⟨typeName, rfl⟩

theorem isPlain (h : target.FromReference) (he : target.needed? = some e) : e.clause.IsPlain := by
  obtain ⟨text, symbol, typeName, hparse, rfl⟩ := h
  cases symbol with
  | verbatim _ => nomatch he
  | imported path binding rename =>
    obtain rfl := Option.some.inj he
    exact Symbol.isPlain_of_parse hparse

end External.FromReference

end ResolverContracts
