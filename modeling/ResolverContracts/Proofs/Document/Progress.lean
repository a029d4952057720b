import ResolverContracts.Proofs.Document.Concatenation
import ResolverContracts.Proofs.Document.ReadersAdvance
import ResolverContracts.Proofs.Document.Tiling
/-!
# Progress

Reading a text ends, and it ends at the end of the text. Why it does is the same everywhere: the
tokens ahead become fewer. Here this is said of each loop by itself, of the readers of types and
constants, which ask for themselves, and of the text as a whole.

A loop is a row of rounds. `Rounds round` lists where the rounds begin that follow from one another,
and `Loops` says that a loop runs such a row and that a token is taken between any two of them. The
loops over items need no more for that than that an item never goes back.

The loops tell by counting whether an item took a token. In a text the places of the tokens tell the
same: two cursors stand at tokens with the same start only if the tokens ahead are the same
(`Cursor.start_eq_iff`).
-/

set_option autoImplicit false

namespace ResolverContracts

open Reader

/-! ## Later cursors -/

namespace Cursor

variable {c d e : Cursor}

/-- Between the two cursors at least one token of the text is taken. -/
def Precedes (c d : Cursor) : Prop := ∃ ts ≠ [], c.ahead = ts ++ d.ahead

theorem Precedes.trans_suffix (h : c.Precedes d) (he : e.ahead <:+ d.ahead) : c.Precedes e := by
  obtain ⟨ts, hts, hahead⟩ := h
  obtain ⟨us, hus⟩ := he
  exact ⟨ts ++ us, by simp [hts], by rw [hahead, ← hus, List.append_assoc]⟩

theorem Precedes.ahead_suffix (h : c.Precedes d) : d.ahead <:+ c.ahead := by
  obtain ⟨ts, -, hahead⟩ := h
  exact ⟨ts, hahead.symm⟩

theorem Precedes.trans (h : c.Precedes d) (hlater : d.Precedes e) : c.Precedes e :=
  h.trans_suffix hlater.ahead_suffix

/-- Progress is progress by the number of tokens ahead, the measure that ends each loop. -/
theorem Precedes.length_lt (h : c.Precedes d) : d.ahead.length < c.ahead.length := by
  obtain ⟨ts, hts, hahead⟩ := h
  have hpos := List.length_pos_iff.mpr hts
  rw [hahead, List.length_append]
  omega

theorem precedes_of_length_lt (h : d.ahead <:+ c.ahead) (hlt : d.ahead.length < c.ahead.length) :
    c.Precedes d := by
  obtain ⟨ts, hts⟩ := h
  refine ⟨ts, ?_, hts.symm⟩
  rintro rfl
  rw [← hts] at hlt
  exact absurd hlt (Nat.lt_irrefl _)

theorem precedes_advance (h : c.ahead ≠ []) : c.Precedes c.advance :=
  precedes_of_length_lt c.advance_ahead_suffix (length_advance_ahead_lt h)

/-- Behind a token that is there, whatever is read. -/
theorem precedes_of_suffix_advance (h : c.ahead ≠ []) (hd : d.ahead <:+ c.advance.ahead) :
    c.Precedes d :=
  (precedes_advance h).trans_suffix hd

end Cursor

/-! ## Rounds -/

/-- The rounds of a loop: where the first one begins, and each that follows. A round says where the
loop goes on, or where it ends. -/
inductive Rounds {σ : Type} (round : σ → Cursor ⊕ σ) : σ → List σ → Cursor → Prop
  | last {s : σ} {d : Cursor} (h : round s = .inl d) : Rounds round s [s] d
  | again {s t : σ} {later : List σ} {d : Cursor} (h : round s = .inr t)
      (hlater : Rounds round t (t :: later) d) : Rounds round s (s :: t :: later) d

/-- From every start the loop runs such rounds to its end, and a token is taken from one to the
next. -/
def Loops {σ : Type} (cursor : σ → Cursor) (round : σ → Cursor ⊕ σ) (loop : σ → Cursor) : Prop :=
  ∀ s, ∃ later, Rounds round s (s :: later) (loop s) ∧
    (s :: later).Pairwise fun t u => (cursor t).Precedes (cursor u)

/-- A loop that ends as its round says, or goes on from a later cursor. The induction is on the tokens
ahead. -/
theorem loops_of_round {σ : Type} {cursor : σ → Cursor} {round : σ → Cursor ⊕ σ} {loop : σ → Cursor}
    (h : ∀ s, round s = .inl (loop s) ∨
      ∃ t, round s = .inr t ∧ loop s = loop t ∧ (cursor s).Precedes (cursor t)) :
    Loops cursor round loop := by
  intro s
  induction hlength : (cursor s).ahead.length using Nat.strong_induction_on generalizing s with
  | _ n ih =>
    obtain hlast | ⟨t, hround, hloop, hlater⟩ := h s
    · exact ⟨[], .last hlast, List.pairwise_singleton ..⟩
    · obtain ⟨later, hrounds, hpairs⟩ := ih _ (hlength ▸ hlater.length_lt) t rfl
      rw [hloop]
      refine ⟨t :: later, .again hround hrounds, List.pairwise_cons.mpr ⟨?_, hpairs⟩⟩
      refine List.forall_mem_cons.mpr ⟨hlater, ?_⟩
      intro u hu
      exact hlater.trans (List.rel_of_pairwise_cons hpairs hu)

/-! ## Loops over items -/

section Items

variable {α : Type}

/-- One item, and a token skipped where it took none. -/
def itemRound (close : TokenKind) (item : Reader α) (c : Cursor) : Cursor ⊕ Cursor :=
  if c.atEndOf close then .inl c else .inr (pastItem c (item.run c).2)

/-- A round ends with an item that took something, or with the token that was skipped in its place. -/
theorem loops_itemsUntil (close : TokenKind) (item : Reader α) :
    Loops id (itemRound close item) fun c => ((itemsUntil close item).run c).2 := by
  refine loops_of_round fun c => ?_
  by_cases hend : c.atEndOf close = true
  · refine .inl ((if_pos hend).trans ?_)
    rw [run, itemsUntil_of_end hend]
  · refine .inr ⟨_, if_neg hend, ?_, ?_⟩
    · rw [run, itemsUntil_of_item hend]
      rfl
    · exact Cursor.precedes_of_length_lt (pastItem_ahead_suffix (item c).2)
        (length_pastItem_lt (item c).2 (Cursor.ahead_ne_nil_of_atEndOf hend))

/-- A mark and the item behind it. -/
def markRound (mark : Punctuator) (item : Nat → Reader α) (c : Cursor) : Cursor ⊕ Cursor :=
  if c.kind = .punct mark then .inr ((item c.current.span.start).run c.advance).2 else .inl c

theorem loops_eachAfter (mark : Punctuator) (item : Nat → Reader α) :
    Loops id (markRound mark item) fun c => (eachAfter mark item c).1.2 := by
  refine loops_of_round fun c => ?_
  by_cases hmark : c.kind = .punct mark
  · refine .inr ⟨_, if_pos hmark, ?_, ?_⟩
    · rw [eachAfter, dif_pos hmark]
      rfl
    · exact Cursor.precedes_of_suffix_advance (Cursor.ahead_ne_nil_of_punct hmark)
        (run_ahead_suffix _ c.advance)
  · refine .inl ((if_neg hmark).trans ?_)
    rw [eachAfter, dif_neg hmark]
    rfl

end Items

/-! ## Other loops -/

/-- One place of a directive, and the mark that another one stands behind. -/
def locationRound (c : Cursor) : Cursor ⊕ Cursor :=
  match c.ahead.head?.bind (Location.ofText? ·.text) with
  | none => .inl (c.report (.complaint .location))
  | some _ =>
    let mark := (eat (.punct .pipe)).run c.advance
    if mark.1 then .inr mark.2 else .inl mark.2

theorem loops_readLocations : Loops id locationRound fun c => (readLocations c).1.2 := by
  refine loops_of_round fun c => ?_
  unfold locationRound
  cases hplace : c.ahead.head?.bind (Location.ofText? ·.text) with
  | none =>
    rw [readLocations_of_none hplace]
    exact .inl rfl
  | some place =>
    have hahead : c.ahead ≠ [] := by
      intro hnil
      simp [hnil] at hplace
    by_cases hmark : (eat (.punct .pipe) c.advance).1.1 = true
    · refine .inr ⟨_, if_pos hmark, ?_, ?_⟩
      · rw [readLocations_of_mark hplace hmark]
        rfl
      · exact Cursor.precedes_of_suffix_advance hahead (run_ahead_suffix _ c.advance)
    · refine .inl ((if_neg hmark).trans ?_)
      rw [readLocations_of_last hplace hmark]
      rfl

/-- One token skipped. -/
def skipRound (mark : Punctuator) (c : Cursor) : Cursor ⊕ Cursor :=
  if c.atEndOf (.punct mark) then .inl c else .inr c.advance

theorem loops_skipTo (mark : Punctuator) : Loops id (skipRound mark) fun c => (skipTo mark c).1.2 := by
  refine loops_of_round fun c => ?_
  rw [skipTo]
  by_cases hend : c.atEndOf (.punct mark) = true
  · rw [dif_pos hend]
    exact .inl (if_pos hend)
  · rw [dif_neg hend]
    exact .inr ⟨_, if_neg hend, rfl,
      Cursor.precedes_advance (Cursor.ahead_ne_nil_of_atEndOf hend)⟩

/-- One token skipped within braces, and how deep the text is in them behind it. -/
def blockRound (s : Nat × Cursor) : Cursor ⊕ (Nat × Cursor) :=
  if s.2.ahead = [] then .inl s.2
  else if depthBehind s.1 s.2.kind = 0 then .inl s.2.advance
  else .inr (depthBehind s.1 s.2.kind, s.2.advance)

theorem loops_skipBlock : Loops Prod.snd blockRound fun s => (skipBlock s.1 s.2).1.2 := by
  refine loops_of_round fun s => ?_
  rw [skipBlock, blockRound]
  by_cases hnil : s.2.ahead = []
  · rw [dif_pos hnil, if_pos hnil]
    exact .inl rfl
  rw [dif_neg hnil, if_neg hnil]
  by_cases hzero : depthBehind s.1 s.2.kind = 0
  · rw [if_pos hzero, if_pos hzero]
    exact .inl rfl
  · rw [if_neg hzero, if_neg hzero]
    exact .inr ⟨_, rfl, rfl, Cursor.precedes_advance hnil⟩

/-! ## Readers that ask for themselves -/

/-- A type, with another reader for what stands in brackets. -/
def readTypeWith (again : Reader TypeNode) : Reader TypeNode := do
  let start ← place
  if ← eat (.punct .bracketOpen) then
    let item ← again
    expect (.punct .bracketClose)
    closeType start (.list item (← spanFrom start))
  else
    closeType start (.named (← readName))

/-- A constant, with another reader for what stands in brackets and braces. -/
def readValueWith (again : Reader Value) : Reader Value := do
  let token ← current
  match token.kind with
  | .punct .bracketOpen => do
    advance
    let items ← itemsIn .bracketClose again
    return .list items (← spanFrom token.span.start)
  | .punct .braceOpen => do
    advance
    let fields ← itemsIn .braceClose do
      let key ← readKey
      return (key, ← again)
    return .object fields (← spanFrom token.span.start)
  | _ => readScalarValue

/-- The reader of types asks for itself at later cursors only. -/
theorem readTypeWith_run {again : Reader TypeNode} {c : Cursor}
    (hagain : ∀ d, c.Precedes d → again.run d = (readType d).1) :
    (readTypeWith again).run c = (readType c).1 := by
  have hplace : place.run c = (c.current.span.start, c) := rfl
  by_cases hk : c.kind = .punct .bracketOpen
  · have heat : (eat (.punct .bracketOpen)).run c = (true, c.advance) := eat_of_kind hk
    have hitem := hagain c.advance (Cursor.precedes_advance (Cursor.ahead_ne_nil_of_punct hk))
    rw [readType, dif_pos hk, readTypeWith, run_bind, hplace, run_bind, heat, if_pos rfl, run_bind, hitem]
    rfl
  · have heat : (eat (.punct .bracketOpen)).run c = (false, c) := eat_of_ne hk
    rw [readType, dif_neg hk, readTypeWith, run_bind, hplace, run_bind, heat, if_neg Bool.false_ne_true]
    rfl

/-- A row in brackets behind the opening one. -/
theorem readClosed_run {α β : Type} {close : Punctuator} {item : Reader α} {c : Cursor}
    {items : Step c.advance (List α)}
    (hitems : (itemsUntil (.punct close) item).run c.advance = items.1) (start : Nat)
    (f : List α → Span → β) :
    (do
      advance
      let xs ← itemsIn close item
      return f xs (← spanFrom start) : Reader β).run c =
    ((items.since c.advance_ahead_suffix : Step c (List α)).andThen fun xs => do
      expect (.punct close)
      return f xs (← spanFrom start)).1 :=
  congrArg (fun r : List α × Cursor => (do
    expect (.punct close)
    return f r.1 (← spanFrom start) : Reader β).run r.2) hitems

/-- The reader of constants asks for itself at later cursors only. -/
theorem readValueWith_run {again : Reader Value} {c : Cursor}
    (hagain : ∀ d, c.Precedes d → again.run d = (readValue d).1) :
    (readValueWith again).run c = (readValue c).1 := by
  have hcurrent : current.run c = (c.current, c) := rfl
  rw [readValue, readValueWith, run_bind, hcurrent]
  by_cases hl : c.kind = .punct .bracketOpen
  · have hahead : c.ahead ≠ [] := Cursor.ahead_ne_nil_of_punct hl
    have hkind : c.current.kind = .punct .bracketOpen := hl
    rw [dif_pos hl]
    simp only [hkind]
    refine readClosed_run (itemsBelow_congr _ _ _ fun d _ _ hd => ?_) _ Value.list
    exact hagain d (Cursor.precedes_of_suffix_advance hahead hd)
  rw [dif_neg hl]
  by_cases ho : c.kind = .punct .braceOpen
  · have hahead : c.ahead ≠ [] := Cursor.ahead_ne_nil_of_punct ho
    have hkind : c.current.kind = .punct .braceOpen := ho
    rw [dif_pos ho]
    simp only [hkind]
    refine readClosed_run (itemsBelow_congr _ _ _ fun d _ _ hd => ?_) _ Value.object
    -- The constant stands behind the key, and no later than the key stands the closing brace.
    have hbehind : (readKey d).1.2.ahead <:+ c.advance.ahead := (readKey d).2.trans hd
    have hvalue := hagain _ (Cursor.precedes_of_suffix_advance hahead hbehind)
    exact congrArg (fun r => (((readKey d).1.1, r.1), r.2)) hvalue
  rw [dif_neg ho]
  split
  · next hkind => exact absurd hkind hl
  · next hkind => exact absurd hkind ho
  · rfl

/-! ## Tokens taken -/

theorem precedes_taken {α : Type} {c : Cursor} (hc : c.ahead ≠ []) (next : Reader α) :
    c.Precedes ((advance >>= fun _ => next).run c).2 :=
  Cursor.precedes_of_suffix_advance hc (next c.advance).2

/-- Behind a fault a token is taken all the same. -/
theorem precedes_reported {α : Type} {c : Cursor} (hc : c.ahead ≠ []) (cause : Cause)
    (next : Reader α) : c.Precedes ((report cause >>= fun _ => advance >>= fun _ => next).run c).2 :=
  precedes_taken (c := c.report cause) hc next

theorem precedes_takeValue {c : Cursor} (hc : c.ahead ≠ []) (start : Nat) (value : Span → Value) :
    c.Precedes ((takeValue start value).run c).2 :=
  precedes_taken hc _

theorem precedes_readName {c : Cursor} (hname : c.current.kind.isName = true) :
    c.Precedes (readName.run c).2 := by
  have hc : c.ahead ≠ [] := Cursor.ahead_ne_nil_of_kind (kind_ne_endOfText_of_isName hname)
  unfold readName
  rw [run, current_bind, if_pos hname]
  exact precedes_taken hc _

/-- A constant of one token takes a token, be it one at all or not. -/
theorem precedes_readScalarValue {c : Cursor} (hc : c.ahead ≠ []) :
    c.Precedes (readScalarValue.run c).2 := by
  unfold readScalarValue
  rw [run, current_bind]
  have hstray (start : Nat) : c.Precedes ((readNoValue start).run c).2 := precedes_reported hc _ _
  -- Each kind of constant takes its token, and so does the complaint about a missing one.
  cases hk : c.current.kind with
  | int =>
    change c.Precedes ((readInt c.current.span.start).run c).2
    unfold readInt
    rw [run, current_bind]
    cases int64OfLiteral? c.current.text with
    | some n => exact precedes_takeValue hc _ _
    | none => exact precedes_reported hc _ _
  | float | string | blockString => exact precedes_takeValue hc _ _
  | name => exact precedes_readName (by rw [hk]; rfl)
  | keyword k =>
    have hname : c.Precedes (readName.run c).2 := precedes_readName (by rw [hk]; rfl)
    cases k
    case trueWord | falseWord | nullWord => exact precedes_takeValue hc _ _
    all_goals exact hname
  | punct p =>
    cases p
    case dollar => exact precedes_reported hc _ _
    all_goals exact hstray _
  | endOfText | stray => exact hstray _

theorem precedes_closed {α β : Type} {c : Cursor} (hc : c.ahead ≠ []) (items : Step c.advance α)
    (next : α → Reader β) :
    c.Precedes ((items.since c.advance_ahead_suffix : Step c α).andThen next).1.2 :=
  Cursor.precedes_of_suffix_advance hc ((next _ _).2.trans items.2)

/-- A constant takes a token. -/
theorem precedes_readValue {c : Cursor} (hc : c.ahead ≠ []) : c.Precedes (readValue c).1.2 := by
  rw [readValue]
  by_cases hl : c.kind = .punct .bracketOpen
  · rw [dif_pos hl]
    exact precedes_closed hc _ _
  rw [dif_neg hl]
  by_cases ho : c.kind = .punct .braceOpen
  · rw [dif_pos ho]
    exact precedes_closed hc _ _
  · rw [dif_neg ho]
    exact precedes_readScalarValue hc

/-- A description takes a token, or there is none. -/
theorem readDescription_cursor (c : Cursor) :
    (readDescription.run c).2 = c ∨ c.Precedes (readDescription.run c).2 := by
  unfold readDescription
  rw [run, current_bind]
  cases hcontents : c.current.contents? with
  | none => exact .inl rfl
  | some contents =>
    have hc : c.ahead ≠ [] := by
      refine Cursor.ahead_ne_nil_of_kind fun hend => ?_
      rw [Cursor.kind] at hend
      simp [Token.contents?, hend] at hcontents
    exact .inr (precedes_taken hc _)

/-- A definition is the answer only where a keyword was taken. -/
theorem precedes_readTypeDefinition {description : Option Description} {c : Cursor}
    (h : ((readTypeDefinition description).run c).1.isSome = true) :
    c.Precedes ((readTypeDefinition description).run c).2 := by
  unfold readTypeDefinition at h ⊢
  rw [run, current_bind] at h ⊢
  cases hk : c.current.kind with
  | keyword k =>
    rw [hk] at h
    have hc : c.ahead ≠ [] := Cursor.ahead_ne_nil_of_kind (by simp [Cursor.kind, hk])
    cases k <;> first | exact precedes_taken hc _ | exact absurd h Bool.false_ne_true
  | _ =>
    rw [hk] at h
    exact absurd h Bool.false_ne_true

/-- A definition that is found takes a token. -/
theorem precedes_readDefinition {c : Cursor} (h : (readDefinition.run c).1.isSome = true) :
    c.Precedes (readDefinition.run c).2 := by
  unfold readDefinition at h ⊢
  rw [run_bind] at h ⊢
  -- Without a description it is the keyword that is taken.
  obtain hstays | htaken := readDescription_cursor c
  · rw [hstays] at h ⊢
    generalize (readDescription.run c).1 = description at h ⊢
    rw [run, current_bind] at h ⊢
    cases hk : c.current.kind with
    | keyword k =>
      rw [hk] at h
      have hc : c.ahead ≠ [] := Cursor.ahead_ne_nil_of_kind (by simp [Cursor.kind, hk])
      have htype {f : TypeDefinition → Definition}
          (hsome : (((readTypeDefinition description).run c).1.map f).isSome = true) :
          c.Precedes ((readTypeDefinition description).run c).2 :=
        precedes_readTypeDefinition (by rwa [Option.isSome_map] at hsome)
      cases k
      case schema =>
        change c.Precedes ((readSchemaDefinition description c.current.span.start).run c).2
        exact precedes_taken hc _
      case directive =>
        change c.Precedes ((readDirectiveDefinition description).run c).2
        unfold readDirectiveDefinition
        rw [run_bind]
        exact precedes_taken hc _
      case extend =>
        cases description with
        | none => exact precedes_taken hc _
        | some d => exact precedes_reported hc _ _
      all_goals first | exact htype h | exact absurd h Bool.false_ne_true
    | punct p =>
      rw [hk] at h
      cases p <;> exact absurd h Bool.false_ne_true
    | _ =>
      rw [hk] at h
      exact absurd h Bool.false_ne_true
  · exact htaken.trans_suffix (run_ahead_suffix _ _)

/-! ## Whole texts -/

/-- In a text, two cursors stand at tokens with the same start only where no token was taken between
them. Tokens are not empty, and neither do they overlap with the end of the text. -/
theorem Cursor.start_eq_iff {l : Lexed} {text : List Char} (h : l.Tiles text) {c d : Cursor} {n : Nat}
    (hc : c.ahead <:+ l.tokens) (hstop : c.stop = l.stop) (hcd : c.Reaches n d) :
    d.current.span.start = c.current.span.start ↔ d.ahead = c.ahead := by
  obtain ⟨hdstop, -, ts, hahead, -⟩ := hcd.taken_eq
  constructor
  · intro hstart
    cases ts with
    | nil => exact hahead.symm
    | cons t ts =>
      -- The token at `d` comes behind `t`, which is not empty, so it starts later.
      have hcurrent : c.current = t := by rw [Cursor.current, hahead]; rfl
      have hmem : d.current ∈ ts ++ (d.ahead ++ [Token.endAt l.stop]) := by
        refine List.mem_append_right ts ?_
        rw [Cursor.current, hdstop, hstop]
        cases d.ahead with
        | nil => exact List.mem_cons_self
        | cons u us => exact List.mem_cons_self
      have hrow : (t :: (ts ++ (d.ahead ++ [Token.endAt l.stop]))) <:+ l.all := by
        obtain ⟨front, hfront⟩ := hc
        exact ⟨front, by rw [Lexed.all, ← hfront, hahead]; simp⟩
      have hlater : t.span.stop ≤ d.current.span.start :=
        List.rel_of_pairwise_cons (h.ordered.sublist hrow.sublist) hmem
      have hfull : t.span.start < t.span.stop := h.nonempty t (hc.subset (by simp [hahead]))
      rw [hcurrent] at hstart
      omega
  · intro hsame
    rw [Cursor.current, Cursor.current, hsame, hdstop]

/-- Where the reading of a text ends. -/
def Lexed.finish (l : Lexed) : Cursor :=
  ((itemsUntil .endOfText readDefinition).run (.start l.tokens l.stop)).2

/-- A text is read once, from its first token to its end. -/
structure Lexed.ReadThrough (l : Lexed) : Prop where
  faults : (Parsed.ofLexed l).faults = l.finish.faults
  ahead : l.finish.ahead = []
  current : l.finish.current = .endAt l.stop
  /-- Every token is taken once, and the end of the text at most once. -/
  taken : l.finish.taken.reverse = l.tokens ∨ l.finish.taken.reverse = l.all
  advances : l.finish.taken.length ≤ l.all.length
  /-- The place of the current token tells whether one was taken. -/
  starts : ∀ c d m n, (Cursor.start l.tokens l.stop).Reaches m c → c.Reaches n d →
    (d.current.span.start = c.current.span.start ↔ d.ahead = c.ahead)

/-- Every loop takes a token from one round to the next, and every reader that asks for itself takes
one before it does so. -/
structure ReadersProgress : Prop where
  /-- Items up to a closing token, whatever the reader of items is. -/
  items : ∀ {α : Type} (close : TokenKind) (item : Reader α),
    Loops id (itemRound close item) fun c => (itemsUntil close item c).1.2
  /-- Definitions are items; one that is found has taken a token itself. -/
  definitions : ∀ c, (readDefinition c).1.1.isSome = true → c.Precedes (readDefinition c).1.2
  /-- Directives, and the names behind a mark. -/
  marks : ∀ {α : Type} (mark : Punctuator) (item : Nat → Reader α),
    Loops id (markRound mark item) fun c => (eachAfter mark item c).1.2
  locations : Loops id locationRound fun c => (readLocations c).1.2
  skipTo : ∀ mark, Loops id (skipRound mark) fun c => (skipTo mark c).1.2
  skipBlock : Loops Prod.snd blockRound fun s => (skipBlock s.1 s.2).1.2
  /-- What a type is depends on types at later cursors only. -/
  types : ∀ (again : Reader TypeNode) (c : Cursor),
    (∀ d, c.Precedes d → again.run d = (readType d).1) → (readTypeWith again).run c = (readType c).1
  /-- What a constant is depends on constants at later cursors only. -/
  values : ∀ (again : Reader Value) (c : Cursor),
    (∀ d, c.Precedes d → again.run d = (readValue d).1) →
      (readValueWith again).run c = (readValue c).1
  /-- A constant takes a token, so the next one in a row stands later. -/
  valueTakes : ∀ c : Cursor, c.ahead ≠ [] → c.Precedes (readValue c).1.2

/-- Loop by loop, and reader by reader for those that recurse. -/
theorem readersProgress : ReadersProgress where
  items := loops_itemsUntil
  definitions _ := precedes_readDefinition
  marks := loops_eachAfter
  locations := loops_readLocations
  skipTo := loops_skipTo
  skipBlock := loops_skipBlock
  types _ _ := readTypeWith_run
  values _ _ := readValueWith_run
  valueTakes _ := precedes_readValue

theorem Lexed.Tiles.readThrough {l : Lexed} {text : List Char} (h : l.Tiles text) : l.ReadThrough := by
  let start := Cursor.start l.tokens l.stop
  obtain ⟨n, hn, hreach⟩ := uses_itemsUntil uses_readDefinition.once start
  obtain ⟨hstop, -, ts, hahead, htaken⟩ := hreach.taken_eq
  change start.Reaches n l.finish at hreach
  -- The loop stops at the end of the text only, and no token of the text is of that kind.
  have hend : l.finish.ahead = [] := by
    by_contra hne
    have hclosed : l.finish.atEndOf .endOfText = true := atEndOf_itemsBelow start _
    rw [Cursor.atEndOf, List.isEmpty_eq_false_iff.mpr hne, Bool.false_or, beq_iff_eq] at hclosed
    refine h.kinds l.finish.current ?_ hclosed
    exact hreach.ahead_suffix.subset (Cursor.ahead_eq_cons hne ▸ List.mem_cons_self)
  have hall : l.finish.taken.reverse = l.tokens ++ List.replicate n (.endAt l.stop) := by
    change l.tokens = ts ++ l.finish.ahead at hahead
    change l.finish.taken = _ at htaken
    rw [hend, List.append_nil] at hahead
    rw [htaken, hahead]
    simp [start, Cursor.start]
  have hone : n = 0 ∨ n = 1 := by
    have hbound : n ≤ 1 := Nat.le_trans hn (EndUse.bound_le .fromInside _)
    omega
  refine ⟨rfl, hend, ?_, ?_, ?_, ?_⟩
  · rw [Cursor.current_of_nil hend]
    exact congrArg Token.endAt hstop
  · obtain rfl | rfl := hone
    · exact .inl (hall.trans (List.append_nil _))
    · exact .inr hall
  · have hlength := congrArg List.length hall
    rw [List.length_reverse, List.length_append, List.length_replicate] at hlength
    rw [Lexed.all, List.length_append, List.length_singleton]
    omega
  · intro c d m k hc hcd
    exact Cursor.start_eq_iff h hc.ahead_suffix hc.taken_eq.1 hcd

/-- **Reading goes on.** Whatever the text, it is read to its end with every token taken once, and no
loop and no nesting comes around again without a token taken in between. -/
theorem Document.parse_progresses (text : String) :
    (Lexed.ofText text).ReadThrough ∧ ReadersProgress :=
  ⟨(tiling_lexemesFrom 0 text.toList).tiles.readThrough, readersProgress⟩

end ResolverContracts
