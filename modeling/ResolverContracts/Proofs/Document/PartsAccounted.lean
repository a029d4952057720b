import Mathlib.Data.List.Induction
import ResolverContracts.Proofs.Document.Accounts
import ResolverContracts.Proofs.Document.PartsRead
/-!
# Names, types and constants, accounted for

What the readers of names, descriptions, types and constants take without a fault is a writing of
their answer. Types and constants nest, and so do the proofs: behind an opening bracket fewer tokens
are ahead.

Literals are the part with something to compute. The digits of a whole number are those of its value,
and a string is its contents between quotes, so both literals can be told from what was read.
-/

set_option autoImplicit false

namespace ResolverContracts

open Reader
open Lexeme (word keyword mark)

/-! ## Whole numbers -/

/-- A digit is the one that stands for its value. -/
theorem exists_digitChar {d : Char} (h : d.isDigit = true) :
    ∃ n < 10, n.digitChar = d ∧ d.toNat - '0'.toNat = n := by
  obtain ⟨hlow, hhigh⟩ := Char.isDigit_iff_toNat.mp h
  have hd : d = Char.ofNat (48 + (d.toNat - 48)) := by
    rw [show 48 + (d.toNat - 48) = d.toNat from Nat.add_sub_cancel' hlow, Char.ofNat_toNat]
  have hlt : d.toNat - 48 < 10 := by
    change d.toNat ≤ 57 at hhigh
    omega
  refine ⟨d.toNat - 48, hlt, ?_, rfl⟩
  generalize d.toNat - 48 = n at hd hlt
  subst hd
  clear h hlow hhigh
  decide +revert

theorem digitsValue_append (ds : List Char) (d : Char) :
    digitsValue (ds ++ [d]) = 10 * digitsValue ds + (d.toNat - '0'.toNat) := by
  simp only [digitsValue, List.foldl_append, List.foldl_cons, List.foldl_nil]

/-- Digits that do not start with a zero are the digits of their value. The induction is on the last
digit, which is the one that division by ten gives. -/
theorem toDigits_digitsValue {d : Char} {ds : List Char} (hd : d.isDigit = true) (hzero : d ≠ '0')
    (hds : ∀ x ∈ ds, x.isDigit = true) :
    0 < digitsValue (d :: ds) ∧ Nat.toDigits 10 (digitsValue (d :: ds)) = d :: ds := by
  induction ds using List.reverseRecOn with
  | nil =>
    obtain ⟨n, hn, hchar, hvalue⟩ := exists_digitChar hd
    have hone : digitsValue [d] = n := by rw [← hvalue]; exact Nat.zero_add _
    have hpos : n ≠ 0 := by
      rintro rfl
      exact hzero hchar.symm
    rw [hone, Nat.toDigits_of_lt_base hn, hchar]
    exact ⟨Nat.pos_of_ne_zero hpos, rfl⟩
  | append_singleton ds e ih =>
    obtain ⟨hpos, hdigits⟩ := ih fun x hx => hds x (List.mem_append_left _ hx)
    obtain ⟨n, hn, hchar, hvalue⟩ := exists_digitChar (hds e (by simp))
    rw [← List.cons_append, digitsValue_append, hvalue]
    refine ⟨by omega, ?_⟩
    rw [← Nat.toDigits_append_toDigits (by decide) hpos hn, hdigits, Nat.toDigits_of_lt_base hn, hchar]

/-- A number has no needless zeros in front, so its digits are those of its value. -/
theorem WholePart.toDigits {ds : List Char} (h : WholePart ds) :
    Nat.toDigits 10 (digitsValue ds) = ds ∧ ∀ x ∈ ds, x.isDigit = true := by
  cases h with
  | zero => exact ⟨rfl, by simp⟩
  | digits hd hzero hds =>
    exact ⟨(toDigits_digitsValue hd hzero hds).2, List.forall_mem_cons.mpr ⟨hd, hds⟩⟩

/-- A spelling of a whole number writes the number it is worth. -/
theorem integerWritten_of_spelled {kind : TokenKind} {text : String} (hkind : kind = .int)
    (h : Spelled kind text.toList) : IntegerWritten (integerOfLiteral text) text := by
  generalize hcs : text.toList = cs at h
  obtain rfl : text = String.ofList cs := by rw [← hcs, String.ofList_toList]
  cases h with
  | @int sign whole hsign hwhole =>
    obtain ⟨hdigits, hall⟩ := hwhole.toDigits
    have hrepr : String.ofList whole = (digitsValue whole).repr := by
      rw [Nat.repr_eq_ofList_toDigits, hdigits]
    cases hsign with
    | none =>
      rw [List.nil_append, integerOfLiteral_ofList hall, hrepr]
      exact .decimal (Int.ofNat _)
    | minus =>
      have hvalue : integerOfLiteral (String.ofList ('-' :: whole)) = -(digitsValue whole : Int) := by
        simp only [integerOfLiteral, String.toList_ofList]
      have htext : String.ofList ('-' :: whole) = "-" ++ (digitsValue whole).repr := by
        simp [← hrepr]
      rw [List.cons_append, List.nil_append, hvalue, htext]
      cases digitsValue whole with
      | zero => exact .negativeZero
      | succ n => exact .decimal (Int.negSucc n)
  | word => exact absurd hkind (TokenKind.ofWord_ne _ rfl)
  | _ => cases hkind

/-! ## Strings -/

theorem stringWritten_of_quotes {kind : TokenKind} {text : String} (hkind : kind = .string)
    (h : Spelled kind text.toList) : StringWritten (withoutEnds 1 text) ⟨kind, text⟩ := by
  generalize hcs : text.toList = cs at h
  cases h with
  | @string body hbody =>
    obtain rfl : text = betweenQuotes 1 (String.ofList body) := by
      rw [← String.toList_inj, hcs]
      simp [betweenQuotes]
    rw [withoutEnds_betweenQuotes]
    exact .string
  | word => exact absurd hkind (TokenKind.ofWord_ne _ rfl)
  | _ => cases hkind

theorem stringWritten_of_blockQuotes {kind : TokenKind} {text : String} (hkind : kind = .blockString)
    (h : Spelled kind text.toList) : StringWritten (withoutEnds 3 text) ⟨kind, text⟩ := by
  generalize hcs : text.toList = cs at h
  cases h with
  | @blockString body hbody =>
    obtain rfl : text = betweenQuotes 3 (String.ofList body) := by
      rw [← String.toList_inj, hcs]
      simp [betweenQuotes, blockQuotes, List.replicate]
    rw [withoutEnds_betweenQuotes]
    exact .blockString
  | word => exact absurd hkind (TokenKind.ofWord_ne _ rfl)
  | _ => cases hkind

/-- A token with contents is a string that writes them. -/
theorem stringWritten_of_contents {t : Token} (ht : t.lexeme.IsScanned) {contents : String}
    (h : t.contents? = some contents) : StringWritten contents t.lexeme := by
  unfold Token.contents? at h
  split at h
  · next hkind =>
    obtain rfl := Option.some.inj h
    exact stringWritten_of_quotes hkind (ht.isSpelled (by simp [Token.lexeme, hkind]))
  · next hkind =>
    obtain rfl := Option.some.inj h
    exact stringWritten_of_blockQuotes hkind (ht.isSpelled (by simp [Token.lexeme, hkind]))
  · exact nomatch h

/-! ## Names and descriptions -/

theorem kind_ne_endOfText_of_isName {k : TokenKind} (h : k.isName = true) : k ≠ .endOfText := by
  rintro rfl
  exact absurd h (by decide)

theorem accounts_readName : readName.Accounts fun n ls => ls = [word n.text] := by
  refine .look fun c hc => ?_
  by_cases hname : c.current.kind.isName = true
  · rw [if_pos hname]
    have hend : c.kind ≠ .endOfText := kind_ne_endOfText_of_isName hname
    refine Accounts.taken hc hend (.pure ?_)
    exact congrArg (fun l => [l]) ((hc.current hend).eq_word_of_isName hname)
  · rw [if_neg hname]
    exact Accounts.reportedAt hc _ (.pure trivial)

theorem accounts_readDescription : readDescription.Accounts DescriptionWritten := by
  refine .look fun c hc => ?_
  cases hcontents : c.current.contents? with
  | none => exact .none rfl rfl .absent
  | some text =>
    have hend : c.kind ≠ .endOfText := by
      intro hend
      have hkind : c.current.kind = .endOfText := hend
      simp [Token.contents?, hkind] at hcontents
    exact Accounts.taken hc hend (.pure (.present (stringWritten_of_contents (hc.current hend) hcontents)))

/-! ## Types -/

theorem accounts_closeType (start : Nat) (type : TypeNode) :
    (closeType start type).Accounts fun t ls =>
      t = type ∧ ls = [] ∨ ∃ span, t = .nonNull type span ∧ ls = [mark .bang] := by
  refine .choice (accounts_eat_mark .bang) ?_ (.pure (.inl ⟨rfl, rfl⟩))
  exact .spanned fun span => .inr ⟨span, rfl, rfl⟩

/-- The induction is that of the reader, over the brackets around a type. -/
theorem accounts_readType : Accounts readType TypeNode.Written := by
  intro c hc
  fun_induction readType c with
  | case1 c start hk hlt ih =>
    have hitem : ((readType c.advance).since c.advance_ahead_suffix : Step c TypeNode).Accounts
        fun t ls => ∃ row, ls = mark .bracketOpen :: row ∧ t.Written row :=
      .behindMark hc hk (ih (hc.of_suffix c.advance_ahead_suffix)) fun _ row hrow => ⟨row, rfl, hrow⟩
    refine Accounts.andThen hc hitem fun item => .token (accounts_expect_mark _) fun _ => ?_
    refine .peek (accounts_spanFrom start) fun span => (accounts_closeType start _).imp ?_
    rintro t more (⟨rfl, rfl⟩ | ⟨outer, rfl, rfl⟩) _ ⟨row, rfl, hrow⟩
    · exact .list span hrow
    · exact .nonNullList span outer hrow
  | case2 c start hk =>
    refine Accounts.andThen hc (accounts_readName c hc) fun name =>
      (accounts_closeType start _).imp ?_
    rintro t more (⟨rfl, rfl⟩ | ⟨outer, rfl, rfl⟩) _ rfl
    · exact .named name
    · exact .nonNullNamed name outer

/-! ## Constants -/

/-- A token that is a constant by itself. -/
theorem accounts_takeValue {c : Cursor} (hc : c.Scanned) (hkind : c.kind ≠ .endOfText) (start : Nat)
    {value : Span → Value} (h : ∀ span, (value span).ScalarWritten c.current.lexeme) :
    (takeValue start value c).Accounts fun v ls => ∃ l, ls = [l] ∧ v.ScalarWritten l :=
  Accounts.taken hc hkind (.spanned fun span => ⟨_, rfl, h span⟩)

/-- A number out of range is a fault, so one that is read is its digits. -/
theorem accounts_readInt {c : Cursor} (hc : c.Scanned) (hkind : c.kind = .int) (start : Nat) :
    (readInt start c).Accounts fun v ls => ∃ l, ls = [l] ∧ v.ScalarWritten l := by
  have hend : c.kind ≠ .endOfText := by rw [hkind]; simp
  have hspelled : Spelled c.kind c.current.text.toList :=
    (hc.current hend).isSpelled (by change c.kind ≠ _; rw [hkind]; simp)
  have hwritten := integerWritten_of_spelled hkind hspelled
  unfold readInt int64OfLiteral?
  rw [current_bind]
  by_cases hrange : inInt64Range (integerOfLiteral c.current.text) = true
  · simp only [hrange, if_true]
    refine accounts_takeValue hc hend start fun span => ?_
    have hlexeme : c.current.lexeme = ⟨.int, c.current.text⟩ := congrArg (Lexeme.mk · _) hkind
    rw [hlexeme]
    exact .int span hwritten (by simpa [inInt64Range] using hrange)
  · simp only [hrange]
    exact Accounts.reportedAt hc _ (.bind accounts_advance fun _ => .spanned fun _ _ _ => trivial)

/-- The keywords that are constants. -/
def constantKeywords : List Keyword := [.trueWord, .falseWord, .nullWord]

/-- The three words for constants are keywords, so their kind gives them away. -/
theorem exists_kind_of_mem_constantWords {text : String} (h : text ∈ constantWords) :
    ∃ k ∈ constantKeywords, (word text).kind = .keyword k := by
  simp only [constantWords, List.mem_cons, List.not_mem_nil, or_false] at h
  obtain rfl | rfl | rfl := h
  · exact ⟨.trueWord, by decide⟩
  · exact ⟨.falseWord, by decide⟩
  · exact ⟨.nullWord, by decide⟩

/-- A name that is read where no constant stands is not called like one. -/
theorem accounts_readName_of_ne {c : Cursor} (hc : c.Scanned)
    (hkind : ∀ k ∈ constantKeywords, c.kind ≠ .keyword k) :
    (readName c).Accounts fun n ls => ls = [word n.text] ∧ n.text ∉ constantWords := by
  obtain ⟨hgrows, hrow⟩ := accounts_readName c hc
  refine ⟨hgrows, fun hfaults => ?_⟩
  obtain ⟨_, hls, rfl⟩ := hrow hfaults
  refine ⟨_, hls, rfl, fun hmem => ?_⟩
  obtain ⟨k, hk, hword⟩ := exists_kind_of_mem_constantWords hmem
  exact hkind k hk ((Cursor.kind_of_lexemes hls).trans hword)

theorem accounts_enumName {c : Cursor} (hc : c.Scanned)
    (hkind : ∀ k ∈ constantKeywords, c.kind ≠ .keyword k) :
    ((do return Value.enum (← readName) : Reader Value) c).Accounts
      fun v ls => ∃ l, ls = [l] ∧ v.ScalarWritten l := by
  refine Accounts.andThen hc (accounts_readName_of_ne hc hkind) fun n => .pure ?_
  rintro _ ⟨rfl, hn⟩
  exact ⟨_, rfl, .enum hn⟩

/-- A variable is a fault wherever it stands, so nothing has to be accounted for. -/
theorem accounts_readVariable {W : Value → List Lexeme → Prop} : readVariable.Accounts W :=
  .reported _ <| .bind accounts_advance fun _ => .bind accounts_readName fun _ =>
    .pure fun _ _ _ _ => trivial

theorem accounts_readNoValue (start : Nat) {W : Value → List Lexeme → Prop} :
    (readNoValue start).Accounts W :=
  .reported _ <| .bind accounts_advance fun _ => .spanned fun _ _ _ => trivial

/-- A constant of one token. What is none costs a fault. -/
theorem accounts_readScalarValue :
    readScalarValue.Accounts fun v ls => ∃ l, ls = [l] ∧ v.ScalarWritten l := by
  refine .look fun c hc => ?_
  have hkind : c.kind = c.current.kind := rfl
  cases hk : c.current.kind with
  | int => exact accounts_readInt hc hk _
  | float =>
    rw [hk] at hkind
    refine accounts_takeValue hc (by simp [hkind]) _ fun span => ?_
    have hlexeme : c.current.lexeme = ⟨.float, c.current.text⟩ := congrArg (Lexeme.mk · _) hk
    rw [hlexeme]
    exact .float _ span
  | string | blockString =>
    rw [hk] at hkind
    have hend : c.kind ≠ .endOfText := by simp [hkind]
    refine accounts_takeValue hc hend _ fun span => ?_
    cases hcontents : c.current.contents? with
    | none => simp [Token.contents?, hk] at hcontents
    | some contents => exact .string span (stringWritten_of_contents (hc.current hend) hcontents)
  | name => exact accounts_enumName hc fun k _ => by simp [hkind, hk]
  | keyword k =>
    rw [hk] at hkind
    have hend : c.kind ≠ .endOfText := by simp [hkind]
    have hlexeme := hc.current_eq_keyword hkind
    by_cases hconstant : k ∈ constantKeywords
    · simp only [constantKeywords, List.mem_cons, List.not_mem_nil, or_false] at hconstant
      obtain rfl | rfl | rfl := hconstant
      · exact accounts_takeValue hc hend _ fun span => hlexeme ▸ .true span
      · exact accounts_takeValue hc hend _ fun span => hlexeme ▸ .false span
      · exact accounts_takeValue hc hend _ fun span => hlexeme ▸ .null span
    · have hname := accounts_enumName hc fun j hj heq => hconstant (by simp_all)
      cases k <;> first | exact hname | simp [constantKeywords] at hconstant
  | punct p =>
    cases p <;> first | exact accounts_readVariable c hc | exact accounts_readNoValue _ c hc
  | endOfText | stray => exact accounts_readNoValue _ c hc

theorem accounts_readKey : readKey.Accounts fun n ls => ls = [word n.text, mark .colon] :=
  .token accounts_readName fun _ => .token (accounts_expect_mark .colon) fun _ => .pure rfl

/-- What stands in brackets is closed behind its last element. -/
theorem accounts_closed {α β : Type} {W : α → List Lexeme → Prop} {U : β → List Lexeme → Prop}
    {opening close : Punctuator} {c : Cursor} (hc : c.Scanned) (hopen : c.kind = .punct opening)
    {items : Step c.advance (List α)} (hitems : items.Accounts (Row W)) {start : Nat}
    {f : List α → Span → β}
    (hU : ∀ xs ls span, Row W xs ls → U (f xs span) (mark opening :: (ls ++ [mark close]))) :
    ((items.since c.advance_ahead_suffix : Step c (List α)).andThen fun xs => do
      expect (.punct close)
      return f xs (← spanFrom start)).Accounts U := by
  have hrow : (items.since c.advance_ahead_suffix : Step c (List α)).Accounts
      fun xs ls => ∃ row, ls = mark opening :: row ∧ Row W xs row :=
    hitems.behindMark hc hopen fun _ row hrow => ⟨row, rfl, hrow⟩
  refine Accounts.andThen hc hrow fun xs => .token (accounts_expect_mark close) fun _ => ?_
  refine .spanned fun span => ?_
  rintro _ ⟨row, rfl, hrow⟩
  exact hU xs row span hrow

/-- A constant takes at least one token, so the loops over them need no push. -/
theorem Value.not_written_nil (v : Value) : ¬ v.Written [] := nofun

theorem Value.not_fieldWritten_nil (f : Name × Value) : ¬ Value.FieldWritten f [] := nofun

/-- A constant. The induction is on the tokens ahead: the elements of a list and the fields of an
object stand behind the opening bracket. -/
theorem accounts_readValue : Accounts readValue Value.Written := by
  intro c hc
  induction hlength : c.ahead.length using Nat.strong_induction_on generalizing c with
  | _ n ih =>
    have hbehind : c.advance.Scanned := hc.of_suffix c.advance_ahead_suffix
    rw [readValue]
    by_cases hl : c.kind = .punct .bracketOpen
    · rw [dif_pos hl]
      refine accounts_closed hc hl (itemsBelow_accounts (fun d hd hs => ?_) Value.not_written_nil _ _
        hbehind) fun items ls span hrow => .list span hrow
      exact ih d.ahead.length (by rwa [← hlength, ← c.left_eq]) d hs rfl
    rw [dif_neg hl]
    by_cases ho : c.kind = .punct .braceOpen
    · rw [dif_pos ho]
      refine accounts_closed hc ho (itemsBelow_accounts (fun d hd hs => ?_)
        Value.not_fieldWritten_nil _ _ hbehind) fun fields ls span hrow => .object span hrow
      -- The constant stands behind the key, where there are not more tokens ahead.
      have hvalue := ih (readKey d).1.2.ahead.length
        (Nat.lt_of_le_of_lt (readKey d).2.length_le (by rwa [← hlength, ← c.left_eq]))
        (readKey d).1.2 (hs.of_suffix (readKey d).2) rfl
      refine Cursor.Takes.trans (accounts_readKey d hs) hvalue ?_
      rintro _ ls rfl hv
      exact .field _ hv
    · rw [dif_neg ho]
      refine Cursor.Takes.imp (accounts_readScalarValue c hc) ?_
      rintro _ ⟨l, rfl, hv⟩
      exact .scalar hv

end ResolverContracts
