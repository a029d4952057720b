import ResolverContracts.Proofs.Document.Cuts
/-!
# Tokens tile their text

A text is nothing but its tokens and the blanks around them. `Tiling place cs l` says so along the
text: blanks, a token, and the rest of the text tiled from where that token stops. It is shown once
that the tokens of every text are such a tiling (`tiling_lexemesFrom`), and everything else is read
off it by induction: tokens are not empty and follow each other, they start where characters start,
and what lies between them is blank.

A tiling can end in one peculiar way. A string that is open at the end of the text with a backslash
that claims nothing is the last token, and it stops one byte behind the text (`IsOpenString`).
-/

set_option autoImplicit false

namespace ResolverContracts

/-! ## Blanks at the end -/

theorem LastBlanks.cons {c : Char} {cs : List Char} (hc : isBlankChar c = true)
    (h : LastBlanks cs) : LastBlanks (c :: cs) := by
  cases h with
  | blanks hcs => exact .blanks (.blank hc hcs)
  | comment hcs hbody => exact .comment (.blank hc hcs) hbody

/-- A comment without text in front of its line feed. -/
theorem LastBlanks.line {cs : List Char} (h : LastBlanks cs) : LastBlanks ('#' :: '\n' :: cs) := by
  cases h with
  | blanks hcs => exact .blanks (@Blanks.comment [] _ List.not_mem_nil hcs)
  | comment hcs hbody => exact .comment (@Blanks.comment [] _ List.not_mem_nil hcs) hbody

theorem LastBlanks.of_comment_cons {c : Char} {cs : List Char} (h : LastBlanks ('#' :: cs))
    (hc : c ≠ '\n') : LastBlanks ('#' :: c :: cs) := by
  generalize hall : '#' :: cs = all at h
  cases h with
  | blanks hcs =>
    rw [← hall] at hcs
    exact .blanks (hcs.of_comment_cons hc)
  | @comment front body hfront hbody =>
    cases front with
    | nil =>
      -- The comment that runs to the end is the one that gets another character.
      rw [List.nil_append, List.cons.injEq] at hall
      rw [hall.2]
      exact @LastBlanks.comment [] (c :: body) .nil (by simp [hc.symm, hbody])
    | cons d front =>
      rw [List.cons_append, List.cons.injEq] at hall
      rw [← hall.1] at hfront
      rw [hall.2]
      exact .comment (hfront.of_comment_cons hc) hbody

/-- A text without a token is blank to its end. The flag says that a comment has begun. -/
theorem lastBlanks_of_splitBlanks (flag : Bool) (cs : List Char) (h : (splitBlanks flag cs).2 = []) :
    LastBlanks ((if flag then ['#'] else []) ++ cs) := by
  fun_induction splitBlanks flag cs with
  | case1 flag =>
    cases flag with
    | true => exact @LastBlanks.comment [] [] .nil List.not_mem_nil
    | false => exact .blanks .nil
  | case2 c cs blanks rest hrest ih =>
    rw [hrest] at ih
    -- Within a comment: a line feed ends it, and any other character makes it longer.
    by_cases hfeed : c = '\n'
    · rw [hfeed] at ih ⊢
      exact (ih h).line
    · have hflag : (c != '\n') = true := by simpa using hfeed
      rw [hflag] at ih
      exact (ih h).of_comment_cons hfeed
  | case3 c cs hc blanks rest hrest ih =>
    rw [hrest] at ih
    by_cases hhash : c = '#'
    · rw [hhash] at ih ⊢
      exact ih h
    · have hflag : (c == '#') = false := by simpa using hhash
      rw [hflag] at ih
      exact (ih h).cons (by simpa [hhash] using hc)
  | case4 c cs hc => exact absurd h (List.cons_ne_nil c cs)

/-! ## Tilings -/

/-- A text from the byte `place` on as tokens with blanks between them. -/
inductive Tiling : Nat → List Char → Lexed → Prop
  | blank {place : Nat} {cs : List Char} (hcs : LastBlanks cs) :
      Tiling place cs ⟨[], place + byteLength cs⟩
  | token {place : Nat} {gap body rest : List Char} {kind : TokenKind} {l : Lexed}
      (hgap : Blanks gap) (hbody : body ≠ []) (hkind : kind ≠ .endOfText)
      (hrest : Tiling (place + byteLength gap + byteLength body) rest l) :
      Tiling place (gap ++ (body ++ rest)) (l.behind [⟨kind, String.ofList body,
        ⟨place + byteLength gap, place + byteLength gap + byteLength body⟩⟩])
  | overrun {place : Nat} {gap opened : List Char} (hgap : Blanks gap) (hopen : IsOpenString opened) :
      Tiling place (gap ++ opened) ⟨[⟨.stray, "",
        ⟨place + byteLength gap, place + byteLength gap + byteLength opened + 1⟩⟩],
        place + byteLength gap + byteLength opened + 1⟩

/-- The tokens of a text tile it. -/
theorem tiling_lexemesFrom (place : Nat) (cs : List Char) : Tiling place cs (lexemesFrom place cs) := by
  induction place, cs using text_induction with
  | blank place cs h =>
    have hcs : (splitBlanks false cs).1 = cs := by
      have hall := splitBlanks_append false cs
      rwa [h, List.append_nil] at hall
    rw [lexemesFrom_of_nil h, hcs]
    exact .blank (lastBlanks_of_splitBlanks false cs h)
  | token place gap c rest hgap hc ih =>
    rw [lexemesFrom_front hgap hc]
    have hsplit : (scan c rest).taken ++ (scan c rest).rest = c :: rest := scan_split c rest
    -- A token that stays in the text is as wide as what was taken for it.
    by_cases hbeyond : (scan c rest).beyond = 0
    · have hwidth : (scan c rest).width = byteLength (scan c rest).taken := by
        rw [Scan.width, hbeyond, Nat.add_zero]
      have htoken : (scan c rest).tokenAt (place + byteLength gap) =
          ⟨(scan c rest).kind, String.ofList (scan c rest).taken,
            ⟨place + byteLength gap, place + byteLength gap + byteLength (scan c rest).taken⟩⟩ := by
        rw [Scan.tokenAt, Scan.text, if_pos hbeyond, hwidth]
      rw [hwidth] at ih
      rw [htoken, hwidth, ← hsplit]
      exact .token hgap (scan_taken_ne_nil c rest) (isScanned_scan c rest).kind_ne_endOfText ih
    · -- The scanner claims a byte behind the text, so this is the last token.
      obtain ⟨hkind, hone, hrest, hopen⟩ := scan_overruns hbeyond
      rw [hrest, List.append_nil] at hsplit
      have htoken : (scan c rest).tokenAt (place + byteLength gap) =
          ⟨.stray, "", ⟨place + byteLength gap, place + byteLength gap + byteLength (c :: rest) + 1⟩⟩ := by
        rw [Scan.tokenAt, Scan.text, if_neg hbeyond, Scan.width, hkind, hone, hsplit, ← Nat.add_assoc]
      rw [htoken, Scan.width, hone, hsplit, hrest, lexemesFrom_of_nil rfl]
      rw [hsplit] at hopen
      exact .overrun hgap hopen

namespace Tiling

variable {place : Nat} {cs : List Char} {l : Lexed}

/-- Only the end of a text is an end of a text. -/
theorem kind_ne (h : Tiling place cs l) : ∀ t ∈ l.tokens, t.kind ≠ .endOfText := by
  induction h with
  | blank => exact List.forall_mem_nil _
  | token _ _ hkind _ ih => exact List.forall_mem_cons.mpr ⟨hkind, ih⟩
  | overrun => exact List.forall_mem_singleton.mpr nofun

theorem start_lt_stop (h : Tiling place cs l) : ∀ t ∈ l.tokens, t.span.start < t.span.stop := by
  induction h with
  | blank => exact List.forall_mem_nil _
  | @token place gap body _ _ _ _ hbody _ _ ih =>
    have hpos : 0 < byteLength body := Nat.pos_of_ne_zero fun h => hbody (byteLength_eq_zero.mp h)
    refine List.forall_mem_cons.mpr ⟨?_, ih⟩
    change place + byteLength gap < place + byteLength gap + byteLength body
    omega
  | overrun =>
    refine List.forall_mem_singleton.mpr ?_
    simp only
    omega

/-- Nothing of a text stands in front of it, its end neither. -/
theorem le_start (h : Tiling place cs l) : ∀ t ∈ l.all, place ≤ t.span.start := by
  induction h with
  | blank => exact List.forall_mem_singleton.mpr (Nat.le_add_right ..)
  | token _ _ _ _ ih =>
    refine List.forall_mem_cons.mpr ⟨Nat.le_add_right .., ?_⟩
    intro t ht
    have := ih t ht
    omega
  | overrun =>
    refine List.forall_mem_cons.mpr ⟨Nat.le_add_right .., List.forall_mem_singleton.mpr ?_⟩
    simp only [Token.endAt, Span.emptyAt]
    omega

/-- No token starts before the one in front of it has stopped. -/
theorem ordered (h : Tiling place cs l) :
    l.all.Pairwise fun t later => t.span.stop ≤ later.span.start := by
  induction h with
  | blank => exact List.pairwise_singleton ..
  | token _ _ _ hrest ih => exact List.pairwise_cons.mpr ⟨hrest.le_start, ih⟩
  | overrun =>
    refine List.pairwise_cons.mpr ⟨?_, List.pairwise_singleton ..⟩
    exact List.forall_mem_singleton.mpr (Nat.le_refl _)

end Tiling

/-! ## Pieces of a text -/

/-- A place of a text where a character starts, or where the text ends. -/
def IsBoundary (text : List Char) (place : Nat) : Prop :=
  ∃ before behind, text = before ++ behind ∧ byteLength before = place

/-- The span of a token covers its text. -/
def Token.StandsIn (t : Token) (text : List Char) : Prop :=
  ∃ before behind, text = before ++ (t.text.toList ++ behind) ∧
    t.span = ⟨byteLength before, byteLength before + byteLength t.text.toList⟩

namespace Token.StandsIn

variable {t : Token} {text : List Char}

theorem isBoundary_start (h : t.StandsIn text) : IsBoundary text t.span.start := by
  obtain ⟨before, behind, htext, hspan⟩ := h
  exact ⟨before, t.text.toList ++ behind, htext, by rw [hspan]⟩

theorem isBoundary_stop (h : t.StandsIn text) : IsBoundary text t.span.stop := by
  obtain ⟨before, behind, htext, hspan⟩ := h
  refine ⟨before ++ t.text.toList, behind, by rw [htext, List.append_assoc], ?_⟩
  rw [hspan, byteLength_append]

theorem slice (h : t.StandsIn text) : t.span.slice text = t.text.toList := by
  obtain ⟨before, behind, htext, hspan⟩ := h
  rw [hspan, htext, ← List.append_assoc, Span.slice_append]

end Token.StandsIn

/-- There are no more bytes than the text has. -/
theorem takeBytes_eq_none {cs : List Char} {n : Nat} (h : byteLength cs < n) :
    takeBytes cs n = none := by
  induction cs generalizing n with
  | nil =>
    obtain ⟨n, rfl⟩ := Nat.exists_eq_add_one_of_ne_zero (Nat.ne_zero_of_lt h)
    rfl
  | cons c cs ih =>
    obtain ⟨n, rfl⟩ := Nat.exists_eq_add_one_of_ne_zero (Nat.ne_zero_of_lt h)
    rw [byteLength] at h
    rw [takeBytes]
    by_cases hfits : c.utf8Size ≤ n + 1
    · rw [if_pos hfits, ih (by omega), Option.map_none]
    · rw [if_neg hfits]

namespace Span

theorem slice_emptyAt (place : Nat) (text : List Char) : (emptyAt place).slice text = [] := by
  have hlength : (⟨place, place⟩ : Span).length = 0 := Nat.sub_self place
  rw [emptyAt, slice, if_pos (Nat.le_refl place), hlength]
  cases dropBytes text place with
  | none => rfl
  | some cs => cases cs <;> rfl

/-- A span that leaves the text covers nothing. -/
theorem slice_overrun (before opened : List Char) :
    slice ⟨byteLength before, byteLength (before ++ opened) + 1⟩ (before ++ opened) = [] := by
  have hlength : (⟨byteLength before, byteLength (before ++ opened) + 1⟩ : Span).length =
      byteLength opened + 1 := by
    simp only [length, byteLength_append]
    omega
  rw [slice, dropBytes_append, Option.bind_some, hlength,
    takeBytes_eq_none (Nat.lt_succ_self _), Option.getD_none, ite_self]

/-- The blanks in front of a token, as a part of the text. -/
theorem slice_gap {before : List Char} {place : Nat} (hbefore : byteLength before = place)
    (gap rest : List Char) :
    slice ⟨place, place + byteLength gap⟩ (before ++ (gap ++ rest)) = gap := by
  rw [← hbefore, ← List.append_assoc, slice_append]

end Span

/-! ## Gaps and the end -/

/-- What lies in front of each token of a row that begins at a place. -/
def gapsFrom : Nat → List Token → List Span
  | _, [] => []
  | place, t :: ts => ⟨place, t.span.start⟩ :: gapsFrom t.span.stop ts

/-- Where a row of tokens that begins at a place stops. -/
def stopAfter : Nat → List Token → Nat
  | place, [] => place
  | _, t :: ts => stopAfter t.span.stop ts

/-- The tokens of a text that ends with an open string: the last one stops one byte behind the text,
and so does the text. -/
def Lexed.Overruns (l : Lexed) (text : List Char) : Prop :=
  ∃ front before opened, text = before ++ opened ∧ IsOpenString opened ∧
    (∀ t ∈ front, t.StandsIn text) ∧
      l = ⟨front ++ [⟨.stray, "", ⟨byteLength before, byteLength text + 1⟩⟩], byteLength text + 1⟩

theorem Lexed.Overruns.behind {l : Lexed} {text : List Char} {t : Token} (h : l.Overruns text)
    (ht : t.StandsIn text) : (l.behind [t]).Overruns text := by
  obtain ⟨front, before, opened, htext, hopen, hfront, rfl⟩ := h
  exact ⟨t :: front, before, opened, htext, hopen, List.forall_mem_cons.mpr ⟨ht, hfront⟩, rfl⟩

namespace Tiling

variable {place : Nat} {cs : List Char} {l : Lexed}

/-- Every token stands in the text, except for an open string at its end. The induction moves the
tokens that were passed to the front part of the text. -/
theorem pieces (h : Tiling place cs l) (before : List Char) (hbefore : byteLength before = place) :
    (l.stop = byteLength (before ++ cs) ∧ ∀ t ∈ l.tokens, t.StandsIn (before ++ cs)) ∨
      l.Overruns (before ++ cs) := by
  induction h generalizing before with
  | blank =>
    refine .inl ⟨?_, List.forall_mem_nil _⟩
    rw [byteLength_append, hbefore]
  | @token place gap body rest kind l _ _ _ _ ih =>
    have hpiece : Token.StandsIn ⟨kind, String.ofList body,
        ⟨place + byteLength gap, place + byteLength gap + byteLength body⟩⟩
        (before ++ (gap ++ (body ++ rest))) :=
      ⟨before ++ gap, rest, by simp, by simp [byteLength_append, hbefore]⟩
    have hnext : byteLength (before ++ gap ++ body) = place + byteLength gap + byteLength body := by
      rw [byteLength_append, byteLength_append, hbefore]
    have hlater := ih _ hnext
    rw [List.append_assoc, List.append_assoc] at hlater
    obtain ⟨hstop, hall⟩ | hover := hlater
    · exact .inl ⟨hstop, List.forall_mem_cons.mpr ⟨hpiece, hall⟩⟩
    · exact .inr (hover.behind hpiece)
  | @overrun place gap opened _ hopen =>
    -- Here the front part is all that was passed, with the blanks in front of the open string.
    refine .inr ⟨[], before ++ gap, opened, by simp, hopen, List.forall_mem_nil _, ?_⟩
    simp [byteLength_append, hbefore, Nat.add_assoc]

theorem gaps (h : Tiling place cs l) (before : List Char) (hbefore : byteLength before = place) :
    ∀ gap ∈ gapsFrom place l.tokens, Blanks (gap.slice (before ++ cs)) := by
  induction h generalizing before with
  | blank => exact List.forall_mem_nil _
  | @token place gap body rest kind l hgap _ _ _ ih =>
    have hnext : byteLength (before ++ gap ++ body) = place + byteLength gap + byteLength body := by
      rw [byteLength_append, byteLength_append, hbefore]
    have hlater := ih _ hnext
    rw [List.append_assoc, List.append_assoc] at hlater
    refine List.forall_mem_cons.mpr ⟨?_, hlater⟩
    rw [Span.slice_gap hbefore]
    exact hgap
  | @overrun place gap opened hgap _ =>
    refine List.forall_mem_singleton.mpr ?_
    rw [Span.slice_gap hbefore]
    exact hgap

/-- Behind the last token a comment may run to the end of the text. -/
theorem lastGap (h : Tiling place cs l) (before : List Char) (hbefore : byteLength before = place) :
    LastBlanks (Span.slice ⟨stopAfter place l.tokens, l.stop⟩ (before ++ cs)) := by
  induction h generalizing before with
  | @blank place cs hcs =>
    have hslice := Span.slice_gap hbefore cs []
    rw [List.append_nil] at hslice
    change LastBlanks (Span.slice ⟨place, place + byteLength cs⟩ (before ++ cs))
    rwa [hslice]
  | @token place gap body rest kind l _ _ _ _ ih =>
    have hnext : byteLength (before ++ gap ++ body) = place + byteLength gap + byteLength body := by
      rw [byteLength_append, byteLength_append, hbefore]
    have hlater := ih _ hnext
    rw [List.append_assoc, List.append_assoc] at hlater
    exact hlater
  | overrun =>
    -- The text has ended where this token stops.
    change LastBlanks ((Span.emptyAt _).slice _)
    rw [Span.slice_emptyAt]
    exact .blanks .nil

end Tiling

/-- The tokens of a text are what the text is made of. -/
structure Lexed.Tiles (l : Lexed) (text : List Char) : Prop where
  /-- No token is the end of the text; that follows them in `Lexed.all`. -/
  kinds : ∀ t ∈ l.tokens, t.kind ≠ .endOfText
  nonempty : ∀ t ∈ l.tokens, t.span.start < t.span.stop
  /-- The tokens and the end of the text follow each other. -/
  ordered : l.all.Pairwise fun t later => t.span.stop ≤ later.span.start
  starts : ∀ t ∈ l.tokens, IsBoundary text t.span.start
  /-- In front of every token lie blanks, and comments that have ended. -/
  gaps : ∀ gap ∈ gapsFrom 0 l.tokens, Blanks (gap.slice text)
  /-- Behind the last token a comment may run to the end. -/
  lastGap : LastBlanks (Span.slice ⟨stopAfter 0 l.tokens, l.stop⟩ text)
  /-- All tokens stop where a character starts or the text ends, and the end is where the text ends;
  or the text ends with an open string. -/
  ending : (l.stop = byteLength text ∧ ∀ t ∈ l.tokens, IsBoundary text t.span.stop) ∨ l.Overruns text

/-- The text of every token is what its span covers, and so it is for the end of the text. -/
theorem Lexed.slice_ofText (text : String) :
    ∀ t ∈ (Lexed.ofText text).all, t.span.slice text.toList = t.text.toList := by
  refine List.forall_mem_append.mpr ⟨?_, List.forall_mem_singleton.mpr (Span.slice_emptyAt ..)⟩
  obtain ⟨-, hall⟩ | ⟨front, before, opened, htext, -, hfront, hl⟩ :=
    (tiling_lexemesFrom 0 text.toList).pieces [] rfl
  · exact fun t ht => (hall t ht).slice
  · rw [Lexed.ofText, hl]
    refine List.forall_mem_append.mpr ⟨fun t ht => (hfront t ht).slice, ?_⟩
    refine List.forall_mem_singleton.mpr ?_
    rw [List.nil_append] at htext ⊢
    rw [htext, Span.slice_overrun]
    rfl

/-- What is tiled is made of tokens. -/
theorem Tiling.tiles {cs : List Char} {l : Lexed} (h : Tiling 0 cs l) : l.Tiles cs := by
  have hpieces := h.pieces [] rfl
  rw [List.nil_append] at hpieces
  have hstarts : ∀ t ∈ l.tokens, IsBoundary cs t.span.start := by
    obtain ⟨-, hall⟩ | ⟨front, before, opened, htext, -, hfront, hl⟩ := hpieces
    · exact fun t ht => (hall t ht).isBoundary_start
    · rw [hl]
      refine List.forall_mem_append.mpr ⟨fun t ht => (hfront t ht).isBoundary_start, ?_⟩
      exact List.forall_mem_singleton.mpr ⟨before, opened, htext, rfl⟩
  have hending := hpieces.imp_left fun hinside => And.imp_right
    (fun hall t ht => (hall t ht).isBoundary_stop) hinside
  exact ⟨h.kind_ne, h.start_lt_stop, h.ordered, hstarts, h.gaps [] rfl, h.lastGap [] rfl, hending⟩

/-- **Tokens tile their text.** Whatever the text, its tokens follow each other from boundary to
boundary with nothing but blanks between them, up to the end of the text. The one exception is an
open string with a backslash at the end, which stops a byte behind. -/
theorem Lexed.tiles_ofText (text : String) : (Lexed.ofText text).Tiles text.toList :=
  (tiling_lexemesFrom 0 text.toList).tiles

end ResolverContracts
