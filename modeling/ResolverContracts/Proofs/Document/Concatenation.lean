import ResolverContracts.Proofs.Document.Cuts
import ResolverContracts.Proofs.Document.DefinitionsClose
import ResolverContracts.Proofs.Document.EveryToken
/-!
# Texts one behind the other

Behind a text that is read without a fault and ends with a closing brace, every text is read as if it
stood alone, at the places it has there (`Document.parse_append`). What is wrong with it neither adds
to the faults of the first text nor changes a definition of it.

The loop over definitions carries this: it comes to the end of the first text in both runs, and goes on
from there in one of them (`itemsUntil_closes`). Where the first run stands then, the other run stands
in front of the second text (`Parsed.ofLexed_append`).
-/

set_option autoImplicit false

namespace ResolverContracts

open Reader
open Lexeme (mark)

/-! ## The loop over definitions -/

namespace Reader

variable {s : Surroundings} {α β : Type} {close : TokenKind} {item : Reader α} {c : Cursor}

/-- Two loops are the same whose items are, at all cursors that come up. -/
theorem itemsBelow_congr {bound bound' : Nat} {item : (c : Cursor) → c.ahead.length < bound → Step c α}
    {item' : (c : Cursor) → c.ahead.length < bound' → Step c α} (c : Cursor)
    (h : c.ahead.length < bound) (h' : c.ahead.length < bound')
    (hitem : ∀ d hd hd', d.ahead <:+ c.ahead → (item d hd).1 = (item' d hd').1) :
    (itemsBelow bound close item c h).1 = (itemsBelow bound' close item' c h').1 := by
  induction hlength : c.ahead.length using Nat.strong_induction_on generalizing c with
  | _ n ih =>
    rw [itemsBelow, itemsBelow.eq_def bound']
    by_cases hend : c.atEndOf close = true
    · rw [dif_pos hend, dif_pos hend]
    · rw [dif_neg hend, dif_neg hend]
      have hfirst : (item c h).1 = (item' c h').1 := hitem c h h' (List.suffix_refl _)
      have hsuffix := pastItem_ahead_suffix (item c h).2
      have hlt := length_pastItem_lt (item c h).2 fun hn => hend (by simp [Cursor.atEndOf, hn])
      have hrest := ih _ (by omega) (pastItem c (item c h).1.2) (by omega) (by omega)
        (fun d hd hd' hd'' => hitem d hd hd' (hd''.trans hsuffix)) rfl
      -- The proof of the bound is about the cursor, so equal cursors are replaced along with it.
      have hsame {d e : Cursor} (hde : d = e) (hd he) :
          (itemsBelow bound' close item' d hd).1 = (itemsBelow bound' close item' e he).1 := by
        subst hde
        rfl
      have hnext : pastItem c (item c h).1.2 = pastItem c (item' c h').1.2 := by rw [hfirst]
      have hlater := hrest.trans (hsame hnext (by omega) (by rw [← hnext]; omega))
      exact Prod.ext (by simp only [hfirst, hlater]) (by simp only [hlater])

/-- The bound of a loop does not matter to a reader that is asked anywhere. -/
theorem itemsBelow_bound (item : Reader α) {bound bound' : Nat} (c : Cursor)
    (h : c.ahead.length < bound) (h' : c.ahead.length < bound') :
    (itemsBelow bound close (fun c _ => item c) c h).1 =
      (itemsBelow bound' close (fun c _ => item c) c h').1 :=
  itemsBelow_congr c h h' fun _ _ _ _ => rfl

theorem itemsUntil_of_end (h : c.atEndOf close = true) : (itemsUntil close item c).1 = ([], c) := by
  rw [itemsUntil, itemsBelow, dif_pos h]
  rfl

theorem itemsUntil_of_item (h : ¬ c.atEndOf close = true) :
    (itemsUntil close item c).1 =
      ((item c).1.1 :: (itemsUntil close item (pastItem c (item c).1.2)).1.1,
        (itemsUntil close item (pastItem c (item c).1.2)).1.2) := by
  rw [itemsUntil, itemsBelow, dif_neg h]
  exact congrArg (fun r => ((item c).1.1 :: r.1, r.2)) (itemsBelow_bound item _ _ _)

/-- The loop reads the items of the first text, and goes on from a cursor behind them. The induction is
on the tokens ahead: each item is read alike, the last one because the text ends with a brace. -/
theorem itemsUntil_closes {g : α → β} {item' : Reader β} {W : α → List Lexeme → Prop}
    (hitem : item.Closes s g item') (haccounts : item.Accounts W) (hne : ∀ a, ¬ W a [])
    (d : Cursor) (hc : c.Scanned) (hclosed : c.ahead = [] ∨ c.Closed) (hcd : c.Follows s d)
    (hfaults : (itemsUntil .endOfText item c).1.2.faults = c.faults) :
    ∃ e, (itemsUntil .endOfText item c).1.2.Follows s e ∧
      (itemsUntil .endOfText item' d).1 =
        ((itemsUntil .endOfText item c).1.1.map g ++ (itemsUntil .endOfText item' e).1.1,
          (itemsUntil .endOfText item' e).1.2) := by
  induction hlength : c.ahead.length using Nat.strong_induction_on generalizing c d with
  | _ n ih =>
    by_cases hend : c.atEndOf .endOfText = true
    · rw [itemsUntil_of_end hend]
      exact ⟨d, hcd, rfl⟩
    have hahead : c.ahead ≠ [] := fun hn => hend (by simp [Cursor.atEndOf, hn])
    have hclosed := hclosed.resolve_left hahead
    have htakes : c.Takes (item c).1.2 (W (item c).1.1) := haccounts c hc
    have hpast := takes_pastItem htakes (hne _)
    rw [itemsUntil_of_item hend] at hfaults ⊢
    -- Neither the item nor the loop behind it finds a fault, so the item takes tokens.
    have hloop : (itemsUntil .endOfText item).Accounts (Row W) := accounts_itemsUntil haccounts hne
    have hlater := hloop (pastItem c (item c).1.2) (hc.of_suffix (pastItem_ahead_suffix (item c).2))
    have hclean : (item c).1.2.faults = c.faults :=
      (faults_pastItem _ _).symm.trans (hpast.faultless hlater hfaults)
    obtain ⟨ls, hls, hw⟩ := htakes.row hclean
    have hsome : ls ≠ [] := fun hnil => hne _ (hnil ▸ hw)
    have hnext : pastItem c (item c).1.2 = (item c).1.2 := pastItem_of_row hls hsome
    rw [hnext] at hfaults ⊢
    obtain ⟨hanswer, hcursor⟩ := hitem.follows c d hc hclosed hcd hclean
    have hend' : ¬ d.atEndOf .endOfText = true := by rwa [hcd.atEndOf hclosed.sees]
    have hnext' : pastItem d (item' d).1.2 = (item' d).1.2 := by
      have hless := congrArg List.length hls
      rw [List.length_append, ← c.left_eq_length, ← Cursor.left_eq_length] at hless
      have hpos := List.length_pos_iff.mpr hsome
      refine if_pos ?_
      rw [hcd.left, hcursor.left]
      omega
    have hshorter : (item c).1.2.ahead.length < n := by
      rw [← hlength, ← hnext]
      exact length_pastItem_lt (item c).2 hahead
    have hbehind : (item c).1.2.ahead = [] ∨ (item c).1.2.Closed := hclosed.of_suffix (item c).2
    obtain ⟨e, he, hrest⟩ := ih _ hshorter (item' d).1.2 (hc.of_suffix (item c).2) hbehind hcursor
      (hfaults.trans hclean.symm) rfl
    refine ⟨e, he, ?_⟩
    rw [itemsUntil_of_item hend', hnext', hrest, hanswer]
    rfl

end Reader

/-! ## Rows of tokens -/

/-- All places in a text are in front of `n`. -/
structure Lexed.Within (l : Lexed) (n : Nat) : Prop where
  tokens : ∀ t ∈ l.tokens, t.span.start ≤ n ∧ t.span.stop ≤ n
  stop : l.stop ≤ n

/-- Nothing changes if places behind `n` are taken back to `n`. -/
theorem Lexed.Within.move_eq {l : Lexed} {n : Nat} (h : l.Within n) : l.move (min · n) = l := by
  have htoken : ∀ t ∈ l.tokens, t.move (min · n) = id t := by
    intro t ht
    obtain ⟨hstart, hstop⟩ := h.tokens t ht
    simp only [Token.move, Span.move, Nat.min_eq_left hstart, Nat.min_eq_left hstop, id]
  rw [Lexed.move, List.map_congr_left htoken, List.map_id, Nat.min_eq_left h.stop]

/-- Where all places of a text are in front of `n`, the last token taken stops there, too: reading
carries places through, and so does not tell apart a text and the same one taken back to `n`. -/
theorem Lexed.Within.lastStop_le {l : Lexed} {n : Nat} (h : l.Within n) :
    (itemsUntil .endOfText readDefinition (.start l.tokens l.stop)).1.2.lastStop ≤ n := by
  have hmax (a b : Nat) : min (max a b) n = max (min a n) (min b n) := by omega
  have hstart := Cursor.follows_start (m := (min · n)) hmax (Nat.zero_min n) l
  rw [h.move_eq] at hstart
  have hfinish := (matches_itemsUntil .endOfText matches_readDefinition _ _ hstart
    (.inl trivial)).cursor.lastStop
  exact (Nat.zero_max _).symm.trans hfinish ▸ Nat.min_le_right _ n

/-- Around a text: nothing in front of it, and these tokens behind it. -/
def Surroundings.continued (behind : List Token) (stop : Nat) : Surroundings where
  place := id
  place_max _ _ := rfl
  start := 0
  start_le _ := Nat.zero_le _
  before := []
  behind := behind
  stop := stop
  together := False
  behind_eq_nil := False.elim

/-- Around a text: `n` bytes in front of it, and nothing behind it. -/
def Surroundings.shifted (n stop : Nat) : Surroundings :=
  { Surroundings.moved (m := (· + n)) (fun a b => (Nat.add_max_add_right a b n).symm) stop with
    start := n
    start_le := Nat.le_add_left n }

/-- Where a run over a text has ended, the run over the text and a second one is in front of the second
one. -/
theorem Cursor.Follows.second {finish e : Cursor} {second : Lexed} {n : Nat}
    (h : finish.Follows (.continued (second.move (· + n)).tokens (second.move (· + n)).stop) e)
    (hahead : finish.ahead = []) (hlast : finish.lastStop ≤ n) (hfaults : finish.faults = []) :
    (Cursor.start second.tokens second.stop).Follows (.shifted n second.stop) e where
  ahead := by
    rw [h.ahead, hahead]
    exact (List.append_nil _).symm
  stop := h.stop
  together _ := rfl
  lastStop := by
    have heq : max 0 e.lastStop = finish.lastStop := h.lastStop
    change max n e.lastStop = 0 + n
    omega
  faults := by
    rw [h.faults, hfaults]
    rfl

/-- A row of tokens behind one that is read without a fault and ends with a closing brace. -/
theorem Parsed.ofLexed_append {first second : Lexed} {n : Nat}
    (hscanned : ∀ l ∈ first.lexemes, l.IsScanned) (hwithin : first.Within n)
    (hclosed : first.lexemes.getLast? = some (mark .braceClose))
    (hclean : (Parsed.ofLexed first).faults = []) :
    (Parsed.ofLexed ((second.move (· + n)).behind first.tokens)).document.definitions =
        (Parsed.ofLexed first).document.definitions ++
          (Parsed.ofLexed second).document.definitions.map (·.move (· + n)) ∧
      (Parsed.ofLexed ((second.move (· + n)).behind first.tokens)).faults =
        (Parsed.ofLexed second).faults.map (·.move (· + n)) := by
  let both := (second.move (· + n)).behind first.tokens
  let c := Cursor.start first.tokens first.stop
  let d := Cursor.start both.tokens both.stop
  let s := Surroundings.continued (second.move (· + n)).tokens (second.move (· + n)).stop
  let finish := (itemsUntil .endOfText readDefinition c).1.2
  have hc : c.Scanned := hscanned
  have hfaults : finish.faults = c.faults := hclean
  have hmove : first.tokens.map (·.move id) = first.tokens := List.map_id _
  have hcd : c.Follows s d :=
    ⟨congrArg (· ++ s.behind) hmove.symm, rfl, False.elim, rfl, rfl⟩
  obtain ⟨e, he, hrun⟩ := itemsUntil_closes closes_readDefinition accounts_readDefinition
    not_writesDefinition_nil d hc (.inr hclosed) hcd hfaults
  -- The run over both rows has come to the second one when the other run ends.
  have hahead : finish.ahead = [] := List.map_eq_nil_iff.mp (lexemes_itemsUntil hc)
  have hsecond := he.second hahead hwithin.lastStop_le hfaults
  obtain ⟨hanswer, hcursor⟩ := matches_itemsUntil .endOfText matches_readDefinition _ e hsecond
    (.inl trivial)
  constructor
  · change (itemsUntil .endOfText readDefinition d).1.1.filterMap id = _
    rw [hrun, hanswer, List.filterMap_append, filterMap_option_map, filterMap_option_map]
    have hfirst : ∀ x : Definition, x.move id = id x := Definition.move_id
    exact congrArg (· ++ _) ((List.map_congr_left fun x _ => hfirst x).trans (List.map_id _))
  · change (itemsUntil .endOfText readDefinition d).1.2.faults = _
    rw [hrun]
    exact hcursor.faults

/-! ## Texts -/

/-- A text stops behind all its tokens. -/
theorem within_lexemesFrom (place : Nat) (cs : List Char) :
    (lexemesFrom place cs).Within (lexemesFrom place cs).stop ∧
      place ≤ (lexemesFrom place cs).stop := by
  induction place, cs using text_induction with
  | blank place cs h =>
    rw [lexemesFrom_of_nil h]
    exact ⟨⟨List.forall_mem_nil _, Nat.le_refl _⟩, Nat.le_add_right ..⟩
  | token place gap c rest hgap hc ih =>
    obtain ⟨⟨htokens, -⟩, hle⟩ := ih
    rw [lexemesFrom_front hgap hc]
    simp only [Lexed.behind, List.singleton_append]
    refine ⟨⟨List.forall_mem_cons.mpr ⟨?_, htokens⟩, Nat.le_refl _⟩, by omega⟩
    simp only [Scan.tokenAt]
    omega

/-- Only a closing brace is scanned as one. -/
theorem eq_brace_of_scan {c : Char} {cs : List Char} (h : (scan c cs).kind = .punct .braceClose) :
    c = '}' := by
  have htext : (scan c cs).text = Punctuator.braceClose.text :=
    congrArg Lexeme.text ((isScanned_scan c cs).eq_mark h)
  obtain ⟨ts, hts⟩ := scan_taken_eq_cons c cs
  unfold Scan.text at htext
  split at htext
  · have hchars := congrArg String.toList htext
    rw [hts, String.toList_ofList] at hchars
    exact (List.cons.inj hchars).1
  · exact absurd htext (by decide)

/-- Behind a closing brace at the end of a text, the tokens of another one follow. -/
theorem lexemesFrom_append {cs : List Char} {t : Token} (ht : t ∈ (lexemesFrom 0 cs).tokens)
    (hbrace : t.kind = .punct .braceClose) (hstop : t.span.stop = byteLength cs) (more : List Char) :
    (lexemesFrom 0 cs).stop = byteLength cs ∧
      lexemesFrom 0 (cs ++ more) =
        ((lexemesFrom 0 more).move (· + byteLength cs)).behind (lexemesFrom 0 cs).tokens := by
  obtain ⟨before, c, behind, rfl, hc, rfl⟩ := token_splits ht
  obtain rfl : c = '}' := eq_brace_of_scan hbrace
  have hscan (rest : List Char) : scan '}' rest = ⟨.punct .braceClose, ['}'], rest, 0⟩ := rfl
  obtain rfl : behind = [] := by
    have hwidth : (scan '}' behind).width = 1 := rfl
    have hsize : '}'.utf8Size = 1 := rfl
    simp only [Scan.tokenAt, hwidth, byteLength_append, byteLength, hsize] at hstop
    exact byteLength_eq_zero.mp (by omega)
  have hex : Exchange ['}'] ('}' :: more) :=
    ⟨List.cons_ne_nil _ _, by decide, ⟨List.mem_cons_self⟩⟩
  obtain ⟨front, hfront⟩ := lexemesFrom_cut hex ht rfl
  have hbytes : byteLength (before ++ ['}']) = 0 + byteLength before + 1 := by
    rw [byteLength_append, Nat.zero_add]
    rfl
  -- The tokens in front are the same, and so is the brace.
  have hbehind (rest : List Char) : lexemesFrom (0 + byteLength before) ('}' :: rest) =
      (lexemesFrom (byteLength (before ++ ['}'])) rest).behind
        [⟨.punct .braceClose, "\x7d", ⟨0 + byteLength before, 0 + byteLength before + 1⟩⟩] := by
    rw [lexemesFrom_cons hc, hbytes]
    rfl
  have hnone : lexemesFrom (byteLength (before ++ ['}'])) [] = ⟨[], byteLength (before ++ ['}'])⟩ :=
    lexemesFrom_of_nil rfl _
  have hshort := hfront ['}'] (by simp)
  have hlong := hfront ('}' :: more) (by simp)
  rw [hbehind, hnone] at hshort
  rw [hbehind] at hlong
  rw [hshort]
  refine ⟨rfl, ?_⟩
  have hmore : lexemesFrom (byteLength (before ++ ['}'])) more =
      (lexemesFrom 0 more).move (· + byteLength (before ++ ['}'])) := by
    rw [← lexemesFrom_add, Nat.zero_add]
  rw [List.append_assoc, List.singleton_append, hlong, hmore, Lexed.behind_behind]
  simp [Lexed.behind]

/-- **Reading is compositional at a closing brace.** If a text is read without diagnostics and its last
token is a closing brace with nothing behind it, then reading any other text behind it gives the
definitions of the first one, as they are, and those of the second one at the places they have there,
and precisely the diagnostics of the second one. -/
theorem Document.parse_append {text : String} {t : Token}
    (hlast : (Lexed.ofText text).tokens.getLast? = some t) (hbrace : t.kind = .punct .braceClose)
    (hstop : t.span.stop = byteLength text.toList)
    (hclean : (Document.parse text).diagnostics = .empty) (more : String) :
    (Document.parse (text ++ more)).document.definitions =
        (Document.parse text).document.definitions ++
          (Document.parse more).document.definitions.map (·.move (· + byteLength text.toList)) ∧
      (Document.parse (text ++ more)).diagnostics =
        (Document.parse more).diagnostics.move (· + byteLength text.toList) := by
  have hmem : t ∈ (Lexed.ofText text).tokens := List.mem_of_getLast? hlast
  obtain ⟨hend, htokens⟩ := lexemesFrom_append hmem hbrace hstop more.toList
  have hwithin := (within_lexemesFrom 0 text.toList).1
  rw [hend] at hwithin
  have hscanned := isScanned_lexemesFrom 0 text.toList
  have hclosed : (Lexed.ofText text).lexemes.getLast? = some (mark .braceClose) := by
    have hmark : t.lexeme = mark .braceClose :=
      (hscanned _ (List.mem_map_of_mem hmem)).eq_mark hbrace
    rw [Lexed.lexemes, List.getLast?_map, hlast, Option.map_some, hmark]
  have hfaults := (Parsed.diagnostics_eq_empty_iff _).mp hclean
  obtain ⟨hdefinitions, hlater⟩ :=
    @Parsed.ofLexed_append _ (Lexed.ofText more) _ hscanned hwithin hclosed hfaults
  -- The tokens of the longer text are those of the first, then those of the second moved.
  have htext : Lexed.ofText (text ++ more) =
      ((Lexed.ofText more).move (· + byteLength text.toList)).behind (Lexed.ofText text).tokens := by
    rw [Lexed.ofText, String.toList_append]
    exact htokens
  rw [Document.parse, htext]
  refine ⟨hdefinitions, ?_⟩
  rw [← Parsed.diagnostics_move, Parsed.diagnostics, Parsed.diagnostics]
  exact congrArg (fun faults : List Fault => Diagnostics.mk (faults.map (·.toDiagnostic))) hlater

/-- The tokens of an enumeration of one value. -/
theorem ofText_enumeration :
    Lexed.ofText "enum E\x7bA\x7d" =
      ⟨[⟨.keyword .enum, "enum", ⟨0, 4⟩⟩, ⟨.name, "E", ⟨5, 6⟩⟩, ⟨.punct .braceOpen, "\x7b", ⟨6, 7⟩⟩,
        ⟨.name, "A", ⟨7, 8⟩⟩, ⟨.punct .braceClose, "\x7d", ⟨8, 9⟩⟩], 9⟩ := by
  have hspace : Blanks [' '] := .blank rfl .nil
  have hclose : lexemesFrom 8 ['}'] = ⟨[⟨.punct .braceClose, "\x7d", ⟨8, 9⟩⟩], 9⟩ := by
    rw [lexemesFrom_cons (by decide)]
    exact congrArg (Lexed.behind · _) (lexemesFrom_of_nil rfl 9)
  have hvalue : lexemesFrom 6 ['{', 'A', '}'] =
      ⟨[⟨.punct .braceOpen, "\x7b", ⟨6, 7⟩⟩, ⟨.name, "A", ⟨7, 8⟩⟩,
        ⟨.punct .braceClose, "\x7d", ⟨8, 9⟩⟩], 9⟩ := by
    rw [lexemesFrom_cons (by decide)]
    change (lexemesFrom 7 ['A', '}']).behind _ = _
    rw [lexemesFrom_cons (by decide)]
    exact congrArg (fun l => (Lexed.behind l _).behind _) hclose
  change lexemesFrom 0 ['e', 'n', 'u', 'm', ' ', 'E', '{', 'A', '}'] = _
  rw [lexemesFrom_cons (by decide)]
  change (lexemesFrom 4 ([' '] ++ 'E' :: ['{', 'A', '}'])).behind _ = _
  rw [lexemesFrom_front hspace (by decide)]
  exact congrArg (fun l => (Lexed.behind l _).behind _) hvalue

/-- Behind an enumeration stands a brace too many. -/
theorem Document.parse_append_strayBrace :
    (Lexed.ofText "enum E\x7bA\x7d").tokens.getLast? =
        some ⟨.punct .braceClose, "\x7d", ⟨8, 9⟩⟩ ∧
      (Document.parse "enum E\x7bA\x7d").diagnostics = .empty ∧
      (Document.parse ("enum E\x7bA\x7d" ++ "\x7d")).document.definitions =
        (Document.parse "enum E\x7bA\x7d").document.definitions ++
          (Document.parse "\x7d").document.definitions.map (·.move (· + 9)) ∧
      (Document.parse ("enum E\x7bA\x7d" ++ "\x7d")).diagnostics =
        (Document.parse "\x7d").diagnostics.move (· + 9) := by
  have hlast : (Lexed.ofText "enum E\x7bA\x7d").tokens.getLast? =
      some ⟨.punct .braceClose, "\x7d", ⟨8, 9⟩⟩ := by
    rw [ofText_enumeration]
    rfl
  let place := Span.emptyAt 0
  let value : EnumValueDefinition := ⟨none, ⟨"A", place⟩, [], place⟩
  let enumeration : TypeDefinition := ⟨none, ⟨"E", place⟩, [], .enum [value], place⟩
  have hrow : Row Definition.Written [.type enumeration] _ :=
    .cons (.type (.parts .absent .absent .nil
      (.present (.cons (.parts .absent (by decide) .nil) .nil)))) .nil
  have hwritten : (Document.mk [.type enumeration] place).Written
      (Lexed.ofText "enum E\x7bA\x7d").lexemes := by
    rw [ofText_enumeration]
    exact hrow
  have hclean : (Document.parse "enum E\x7bA\x7d").diagnostics = .empty :=
    (Parsed.diagnostics_eq_empty_iff _).mpr (Parsed.ofLexed_of_written hwritten).1
  exact ⟨hlast, hclean, parse_append hlast rfl rfl hclean "\x7d"⟩

end ResolverContracts
