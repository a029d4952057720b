import ResolverContracts.Proofs.Contract.Framing
import ResolverContracts.Proofs.Contract.Replacement
/-!
# Unambiguous texts

What resolution answers has leaves at the bottom, one or several with bars in between, and a frame
around that can be read. So the texts of resolved types are read as these types, with the text of each
leaf as an atom.

The leaves need not even be marked in the text. In front of them there are only signs that open
something, and behind them there comes first a sign that follows something. If the same leaves stood
at two places of one text, then the signs in between would have to be of both kinds (`eq_of_frame`).
With this, the text alone and the texts of the leaves say what a resolved type is
(`Project.mapType_unambiguous`).
-/

set_option autoImplicit false

namespace ResolverContracts

/-! ## Texts in frames -/

section Frames

variable {u k b b' f f' : List Char}

/-- A text that is found again further on goes on as what is in between, turned round. -/
theorem exists_perm_of_append_eq (h : k ++ b = u ++ (k ++ b')) :
    ∃ u', u'.Perm u ∧ b = u' ++ b' := by
  induction k generalizing u with
  | nil => exact ⟨u, .refl u, h⟩
  | cons c k ih =>
    cases u with
    | nil => exact ⟨[], .refl [], List.append_cancel_left h⟩
    | cons d u =>
      obtain ⟨rfl, h⟩ := List.cons.inj h
      obtain ⟨u', hperm, rfl⟩ := ih (u := u ++ [c]) (by simpa using h)
      exact ⟨u', hperm.trans (List.perm_append_singleton c u), rfl⟩

/-- A character that only signs have that follow something. -/
def isFollowing (c : Char) : Bool := c = '[' || c = '>' || c = ')' || c = '|'

/-- What can come behind an operand: the end, or a sign that follows something. -/
inductive Behind : List Char → Prop
  | nil : Behind []
  | sign {c : Char} (hc : isFollowing c = true) (hbar : c ≠ '|') (cs : List Char) : Behind (c :: cs)
  | bar (cs : List Char) : Behind (' ' :: '|' :: cs)

theorem eq_nil_of_frame (hu : ∀ c ∈ u, isFollowing c = false) (hb : Behind b) (hb' : Behind b')
    (h : k ++ b = u ++ (k ++ b')) : u = [] := by
  obtain ⟨u', hperm, rfl⟩ := exists_perm_of_append_eq h
  have hu' : ∀ c ∈ u', isFollowing c = false := fun c hc => hu c (hperm.mem_iff.mp hc)
  cases u' with
  | nil => exact hperm.nil_eq.symm
  | cons c u' =>
    obtain ⟨hc, hu'⟩ := List.forall_mem_cons.mp hu'
    rw [List.cons_append] at hb
    generalize hbehind : c :: (u' ++ b') = behind at hb
    cases hb with
    | nil => nomatch hbehind
    | sign hfollowing =>
      obtain ⟨rfl, -⟩ := List.cons.inj hbehind
      nomatch hfollowing.symm.trans hc
    | bar cs =>
      -- The blank can be all there is in between, but then nothing is in front of the bar.
      obtain ⟨-, hbar⟩ := List.cons.inj hbehind
      cases u' with
      | nil =>
        rw [List.nil_append] at hbar
        subst hbar
        cases hb' with
        | sign _ hne => exact absurd rfl hne
      | cons d u' =>
        obtain ⟨rfl, -⟩ := List.cons.inj hbar
        nomatch hu' _ List.mem_cons_self

/-- The same middle in one text has the same frame. -/
theorem eq_of_frame (hf : ∀ c ∈ f, isFollowing c = false) (hf' : ∀ c ∈ f', isFollowing c = false)
    (hb : Behind b) (hb' : Behind b') (h : f ++ (k ++ b) = f' ++ (k ++ b')) : f = f' ∧ b = b' := by
  rcases List.append_eq_append_iff.mp h with ⟨u, rfl, hrest⟩ | ⟨u, rfl, hrest⟩
  · obtain rfl := eq_nil_of_frame (fun c hc => hf' c (List.mem_append_right f hc)) hb hb' hrest
    exact ⟨(List.append_nil f).symm, List.append_cancel_left hrest⟩
  · obtain rfl := eq_nil_of_frame (fun c hc => hf c (List.mem_append_right f' hc)) hb' hb hrest
    exact ⟨List.append_nil f', (List.append_cancel_left hrest).symm⟩

end Frames

/-! ## Signs -/

namespace TypeToken

/-- Whether the token goes to the operand in front of it. -/
def follows : TypeToken → Bool
  | brackets | closeList | closeParen => true
  | _ => false

theorem toList_join (ts : List TypeToken) : (join ts).toList = ts.flatMap (·.text.toList) := by
  rw [join, String.toList_join, List.flatMap_map]

theorem isFollowing_of_opens {t : TypeToken} (h : t.opens = true) :
    ∀ c ∈ t.text.toList, isFollowing c = false := by
  match t with
  | readonly | openParen | openList .readonly | openList .mutable => simp [text, isFollowing]

/-- The sign that begins with a character. -/
def sign? : Char → Option TypeToken
  | '[' => brackets
  | 'r' => readonly
  | ' ' => bar
  | 'n' => null
  | 'u' => undefined
  | 'R' => openList .readonly
  | 'A' => openList .mutable
  | '>' => closeList
  | '(' => openParen
  | ')' => closeParen
  | _ => none

theorem exists_sign? {t : TypeToken} (h : t.isSign = true) :
    ∃ c cs, t.text.toList = c :: cs ∧ sign? c = some t := by
  have hhead : t.text.toList.head?.bind sign? = some t := by
    match t with
    | brackets | readonly | bar | null | undefined | openList .readonly | openList .mutable
    | closeList | openParen | closeParen => decide
  obtain ⟨c, hc, hsign⟩ := Option.bind_eq_some_iff.mp hhead
  obtain ⟨cs, htext⟩ := List.head?_eq_some_iff.mp hc
  exact ⟨c, cs, htext, hsign⟩

/-- Signs can be told from their text, as each begins with another character. -/
theorem eq_of_join {ts us : List TypeToken} (hts : ∀ t ∈ ts, t.isSign = true)
    (hus : ∀ t ∈ us, t.isSign = true) (h : (join ts).toList = (join us).toList) : ts = us := by
  rw [toList_join, toList_join] at h
  induction ts generalizing us with
  | nil =>
    cases us with
    | nil => rfl
    | cons u us =>
      obtain ⟨c, cs, hu, -⟩ := exists_sign? (List.forall_mem_cons.mp hus).1
      rw [List.flatMap_cons, hu] at h
      nomatch h
  | cons t ts ih =>
    obtain ⟨ht, hts⟩ := List.forall_mem_cons.mp hts
    obtain ⟨c, cs, hc, hsign⟩ := exists_sign? ht
    cases us with
    | nil =>
      rw [List.flatMap_cons, hc] at h
      nomatch h
    | cons u us =>
      obtain ⟨hu, hrest⟩ := List.forall_mem_cons.mp hus
      obtain ⟨d, ds, hd, hsign'⟩ := exists_sign? hu
      rw [List.flatMap_cons, List.flatMap_cons] at h
      obtain rfl : c = d := by
        rw [hc, hd] at h
        exact (List.cons.inj h).1
      obtain rfl : t = u := Option.some.inj (hsign.symm.trans hsign')
      exact congrArg (t :: ·) (ih hts hrest (List.append_cancel_left h))

end TypeToken

/-! ## Types with leaves at the bottom -/

namespace TypeExpr

open TypeToken TypeReader

variable {t u : TypeExpr}

theorem behind_of_follows {token : TypeToken} (h : token.follows = true) (ts : List TypeToken) :
    Behind (TypeToken.join (token :: ts)).toList := by
  rw [TypeToken.join_cons, String.toList_append]
  match token with
  | brackets => exact .sign (c := '[') rfl (by decide) _
  | closeList => exact .sign (c := '>') rfl (by decide) _
  | closeParen => exact .sign (c := ')') rfl (by decide) _

/-- Behind the bottom comes first a sign that follows something. -/
theorem behind_back : ∀ (t : TypeExpr) {ts : List TypeToken}, Behind (TypeToken.join ts).toList →
    Behind (TypeToken.join (t.back ++ ts)).toList
  | nullable inner, ts, h => by
    rw [back, List.append_assoc]
    refine behind_back inner ?_
    rw [List.cons_append, TypeToken.join_cons, String.toList_append]
    exact .bar _
  | list element .generic access, ts, h => by
    rw [back, List.append_assoc]
    exact behind_back element (behind_of_follows rfl _)
  | list element .suffix access, ts, h => by
    rw [back, List.append_assoc, List.append_assoc]
    refine behind_back element ?_
    cases element.needsParens with
    | false => exact behind_of_follows rfl _
    | true => exact behind_of_follows rfl _
  | primitive _, ts, h => h
  | named _, ts, h => h
  | emptyRecord, ts, h => h
  | .parameter _, ts, h => h
  | union _, ts, h => h

/-- Leaves with bars in between. -/
def barred : List String → List TypeToken
  | [] => []
  | text :: texts => atom text :: texts.flatMap fun text => [bar, atom text]

theorem atoms_barred (texts : List String) : atoms (barred texts) = texts := by
  cases texts with
  | nil => rfl
  | cons text texts =>
    refine congrArg (text :: ·) ?_
    induction texts with
    | nil => rfl
    | cons text texts ih => exact congrArg (text :: ·) ih

theorem leaves_of_isLeaf {t : TypeExpr} (h : t.isLeaf = true) : t.leaves = [t] := by
  cases t with
  | list element form access => nomatch h
  | union members => nomatch h
  | nullable inner => nomatch h
  | _ => rfl

theorem leaves_unionOf_of_isLeaf {types : List TypeExpr} (h : ∀ t ∈ types, t.isLeaf = true) :
    (unionOf types).leaves = types := by
  rw [leaves_unionOf, List.flatMap_congr fun t ht => leaves_of_isLeaf (h t ht)]
  exact List.flatMap_singleton' types

/-- What is in front of brackets without parentheses needs none. -/
theorem needsParens_bottom_of_isExposed : ∀ t : TypeExpr, t.isExposed = true →
    t.bottom.needsParens = false
  | nullable inner, h => needsParens_bottom_of_isExposed inner h
  | list element .generic _, h => needsParens_bottom_of_isExposed element h
  | list element .suffix _, h => by
    rcases Bool.or_eq_true_iff.mp h with h | h
    · obtain ⟨hflat, hparens⟩ := Bool.and_eq_true_iff.mp h
      rw [bottom, bottom_of_isFlat hflat]
      exact Bool.not_eq_true' _ |>.mp hparens
    · exact needsParens_bottom_of_isExposed element h

/-- The type with the text of each leaf as an atom. -/
def plain (t : TypeExpr) : TypeExpr :=
  t.withBottom (unionOf (t.leaves.map fun leaf => declared leaf.render))

/-- The types that can be told from how they are written: levels that are marked once, and at the
bottom a leaf, or several of them. -/
structure Legible (t : TypeExpr) : Prop where
  marked : t.WellMarked
  bottom : ∃ types, types ≠ [] ∧ t.bottom = unionOf types ∧ ∀ t ∈ types, t.isLeaf = true

theorem Legible.exists_leaves (h : t.Legible) :
    t.leaves ≠ [] ∧ t.bottom = unionOf t.leaves ∧ ∀ leaf ∈ t.leaves, leaf.isLeaf = true := by
  obtain ⟨types, hne, hbottom, hleaf⟩ := h.bottom
  have hleaves : t.leaves = types := by
    rw [← leaves_bottom, hbottom, leaves_unionOf_of_isLeaf hleaf]
  rw [hleaves]
  exact ⟨hne, hbottom, hleaf⟩

/-- At the bottom of a legible type are its leaves, and nothing else. -/
theorem Legible.tokens_eq (h : t.Legible) : t.tokens = t.frame (barred (t.leaves.map render)) := by
  obtain ⟨hne, hbottom, hleaf⟩ := h.exists_leaves
  rw [tokens_eq_frame, hbottom]
  cases hleaves : t.leaves with
  | nil => exact absurd hleaves hne
  | cons type types =>
    rw [hleaves] at hleaf
    obtain ⟨htype, htypes⟩ := List.forall_mem_cons.mp hleaf
    rw [tokens_unionOf, tokens_of_isLeaf htype, List.map_cons, barred, List.flatMap_map]
    refine congrArg (fun ts => t.frame (atom type.render :: ts)) (List.flatMap_congr fun t ht => ?_)
    rw [tokens_of_isLeaf (htypes t ht)]

theorem Legible.atoms_tokens (h : t.Legible) : atoms t.tokens = t.leaves.map render := by
  rw [h.tokens_eq, frame, atoms_append, atoms_append, atoms_barred,
    atoms_of_isSign fun token ht => isSign_of_opens (opens_of_mem_front t token ht),
    atoms_of_isSign (isSign_of_mem_back t), List.nil_append, List.append_nil]

/-- Leaves are read as alternatives. The induction adds one after the other. -/
theorem lists_barred (text : String) (texts : List String) :
    Lists (barred (text :: texts)) ((text :: texts).map declared) := by
  induction texts using List.reverseRecOn with
  | nil => exact (fills_atom text).lists
  | append_singleton texts next ih => simpa [barred] using ih.bar (fills_atom next)

/-- **Reading back.** The tokens of a legible type are read as the type. -/
theorem Legible.read_tokens (h : t.Legible) : read t.tokens = some t.plain := by
  obtain ⟨hne, hbottom, -⟩ := h.exists_leaves
  rw [h.tokens_eq, plain]
  cases hleaves : t.leaves with
  | nil => exact absurd hleaves hne
  | cons type types =>
    have hlists := lists_barred type.render (types.map render)
    rw [← List.map_cons, ← hleaves, List.map_map] at hlists
    rw [← hleaves]
    refine h.marked.read_frame hlists (by simpa using hne) fun hexposed => ?_
    -- Several leaves would need parentheses.
    have hparens := needsParens_bottom_of_isExposed t hexposed
    rw [hbottom, hleaves] at hparens
    cases types with
    | nil =>
      rw [hleaves]
      exact fills_atom type.render
    | cons next types => simp [unionOf, needsParens] at hparens

/-- Legible types with one text and with the same leaves are written in the same way. -/
theorem Legible.tokens_eq_of_render (ht : t.Legible) (hu : u.Legible) (hrender : t.render = u.render)
    (hleaves : t.leaves.map render = u.leaves.map render) : t.tokens = u.tokens := by
  have htext : (TypeToken.join t.tokens).toList = (TypeToken.join u.tokens).toList := by
    rw [join_tokens, join_tokens, hrender]
  have hfront (t : TypeExpr) : ∀ c ∈ (TypeToken.join t.front).toList, isFollowing c = false := by
    intro c hc
    rw [toList_join] at hc
    obtain ⟨token, htoken, hc⟩ := List.mem_flatMap.mp hc
    exact isFollowing_of_opens (opens_of_mem_front t token htoken) c hc
  have hback (t : TypeExpr) : Behind (TypeToken.join t.back).toList := by
    have h : Behind (TypeToken.join (t.back ++ [])).toList := behind_back t .nil
    rwa [List.append_nil] at h
  rw [ht.tokens_eq, hu.tokens_eq, hleaves, frame, frame] at htext ⊢
  rw [join_append, join_append, join_append, join_append, String.toList_append,
    String.toList_append, String.toList_append, String.toList_append] at htext
  obtain ⟨hfronts, hbacks⟩ := eq_of_frame (hfront t) (hfront u) (hback t) (hback u) htext
  rw [eq_of_join (fun token h => isSign_of_opens (opens_of_mem_front t token h))
      (fun token h => isSign_of_opens (opens_of_mem_front u token h)) hfronts,
    eq_of_join (isSign_of_mem_back t) (isSign_of_mem_back u) hbacks]

end TypeExpr

/-! ## Resolved types -/

namespace Project

variable {p : Project} {access : Access} {r : TypeRef} {t : TypeExpr}

/-- Resolution answers nothing but types that can be read. -/
theorem legible_of_mapType (h : p.mapType access r = .ok t) : t.Legible where
  marked := wellMarked_of_mapType h
  bottom := exists_unionOf_of_mapNamed (expresses_of_mapType h).bottom

/-- **Unambiguous texts.** The text of a resolved type, with the texts of its leaves as atoms, is read
as the type: with the lists at their levels, spelled and used as they are, with nothing allowed at the
levels where it is, and with the leaves in their order. And the leaves need not even be marked in the
text. Whatever else resolution can answer, if it has the same leaves and the same text, then it is
this type again. -/
theorem mapType_unambiguous (h : p.mapType access r = .ok t) :
    TypeToken.join t.tokens = t.render ∧ TypeToken.atoms t.tokens = t.leaves.map (·.render) ∧
      TypeReader.read t.tokens = some t.plain ∧
      (t.plain.nullables = t.nullables ∧ t.plain.lists = t.lists ∧
        t.plain.bottom = .unionOf (t.leaves.map fun leaf => .declared leaf.render)) ∧
      ∀ {p' : Project} {access' : Access} {r' : TypeRef} {u : TypeExpr},
        p'.mapType access' r' = .ok u → u.render = t.render →
        u.leaves.map (·.render) = t.leaves.map (·.render) → u.plain = t.plain := by
  have ht := legible_of_mapType h
  have hflat : (TypeExpr.unionOf (t.leaves.map fun leaf => .declared leaf.render)).isFlat = true := by
    refine TypeExpr.isFlat_unionOf fun leaf hleaf => ?_
    obtain ⟨leaf, -, rfl⟩ := List.mem_map.mp hleaf
    rfl
  refine ⟨TypeExpr.join_tokens t, ht.atoms_tokens, ht.read_tokens,
    ⟨TypeExpr.nullables_withBottom hflat t, TypeExpr.lists_withBottom hflat t,
      TypeExpr.bottom_withBottom hflat t⟩, fun hu hrender hleaves => ?_⟩
  have hu := legible_of_mapType hu
  have htokens := hu.tokens_eq_of_render ht hrender hleaves
  exact Option.some.inj (hu.read_tokens.symm.trans (htokens ▸ ht.read_tokens))

/-- A list of lists of nodes, where users are rows. -/
theorem mapType_unambiguous_nodeCatalogue :
    ∃ t, (⟨nodeCatalogue, rowOverrides⟩ : Project).mapType .readonly
        (.nonNull (.list (.nonNull (.list (.nonNull (.named "Node")))))) = .ok t ∧
      t.render = "readonly ReadonlyArray<UserRow | Node>[]" ∧
      TypeReader.read t.tokens = some (.list (.list (.union [.declared "UserRow", .declared "Node"])
        .generic .readonly) .suffix .readonly) := by
  have ht : (⟨nodeCatalogue, rowOverrides⟩ : Project).mapType .readonly
      (.nonNull (.list (.nonNull (.list (.nonNull (.named "Node")))))) =
      .ok (.list (.list (.union [.external (.named "./rows" "UserRow") "User", .declared "Node"])
        .generic .readonly) .suffix .readonly) := by rfl
  obtain ⟨-, -, hread, -⟩ := mapType_unambiguous ht
  exact ⟨_, ht, by decide, hread⟩

end Project

end ResolverContracts
