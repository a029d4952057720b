import ResolverContracts.Proofs.Document.Exchange
import ResolverContracts.Proofs.Document.Moved
/-!
# Cutting a text where a token starts

A text is blank, or it is blanks, a lexeme and a text, and the tokens of a text follow this shape
(`text_induction`, `lexemesFrom_front`). Tokens keep their kinds and texts when a text stands somewhere
else, and blanks in front of a text only move it (`lexemesFrom_add`, `lexemesFrom_blanks`).

The tokens in front of a place where a token starts do not depend on what stands there, as long as
that is a text for which the first one can be exchanged (`lexemesFrom_cut`).
-/

set_option autoImplicit false

namespace ResolverContracts

/-! ## Blanks -/

/-- Blanks in front of a text, and those that it starts with. -/
theorem Blanks.splitBlanks_eq {gap : List Char} (h : Blanks gap) (rest : List Char) :
    ResolverContracts.splitBlanks false (gap ++ rest) =
      (gap ++ (ResolverContracts.splitBlanks false rest).1,
        (ResolverContracts.splitBlanks false rest).2) := by
  refine Prod.ext ?_ (h.splitBlanks rest)
  have hall := splitBlanks_append false (gap ++ rest)
  have hrest := splitBlanks_append false rest
  rw [h.splitBlanks rest] at hall
  conv at hall => rhs; rw [← hrest]
  rw [← List.append_assoc] at hall
  exact List.append_cancel_right hall

theorem splitBlanks_cons {c : Char} {cs : List Char} (h : c ∉ separators) :
    splitBlanks false (c :: cs) = ([], c :: cs) := by
  rw [mem_separators_iff, Bool.not_eq_true] at h
  simp [splitBlanks, h]

theorem Blanks.of_comment_cons {c : Char} {cs : List Char} (h : Blanks ('#' :: cs)) (hc : c ≠ '\n') :
    Blanks ('#' :: c :: cs) := by
  cases h with
  | blank hblank => exact absurd hblank (by decide)
  | @comment body rest hbody hrest => exact @Blanks.comment (c :: body) rest (by simp [hc.symm, hbody]) hrest

/-- In front of a token stand blanks; a comment has ended there. The flag says that one has begun. -/
theorem blanks_of_splitBlanks (flag : Bool) (cs : List Char) (h : (splitBlanks flag cs).2 ≠ []) :
    Blanks ((if flag then ['#'] else []) ++ (splitBlanks flag cs).1) := by
  -- The flag says that a comment is open, so its `#` is put in front of what was skipped.
  fun_induction splitBlanks flag cs with
  | case1 => exact absurd rfl h
  | case2 c cs blanks rest hrest ih =>
    rw [hrest] at ih
    by_cases hfeed : c = '\n'
    · rw [hfeed] at ih ⊢
      exact @Blanks.comment [] _ List.not_mem_nil (ih h)
    · have hflag : (c != '\n') = true := by simpa using hfeed
      rw [hflag] at ih
      exact (ih h).of_comment_cons hfeed
  | case3 c cs hc blanks rest hrest ih =>
    rw [hrest] at ih
    by_cases hhash : c = '#'
    · rw [hhash] at ih ⊢
      exact ih h
    · have hflag : (c == '#') = false := by simpa using hhash
      rw [hflag] at ih
      exact .blank (by simpa [hhash] using hc) (ih h)
  | case4 c cs hc => exact .nil

theorem not_mem_separators_of_splitBlanks {flag : Bool} {cs rest : List Char} {c : Char}
    (h : (splitBlanks flag cs).2 = c :: rest) : c ∉ separators := by
  fun_induction splitBlanks flag cs with
  | case1 => exact absurd h.symm (List.cons_ne_nil c rest)
  | case2 d ds blanks tail htail ih | case3 d ds hd blanks tail htail ih =>
    rw [htail] at ih
    exact ih h
  | case4 d ds hd =>
    obtain ⟨rfl, rfl⟩ := List.cons.inj h
    rwa [mem_separators_iff]

/-! ## Places of tokens -/

/-- The same end, with more tokens in front. -/
def Lexed.behind (l : Lexed) (front : List Token) : Lexed := ⟨front ++ l.tokens, l.stop⟩

theorem Lexed.behind_behind (l : Lexed) (front later : List Token) :
    (l.behind later).behind front = l.behind (front ++ later) := by
  simp [behind]

/-- The token that a scan finds at a place. -/
def Scan.tokenAt (s : Scan) (place : Nat) : Token := ⟨s.kind, s.text, ⟨place, place + s.width⟩⟩

/-- A text without tokens ends behind its blanks. -/
theorem lexemesFrom_of_nil {cs : List Char} (h : (splitBlanks false cs).2 = []) (place : Nat) :
    lexemesFrom place cs = ⟨[], place + byteLength (splitBlanks false cs).1⟩ := by
  rw [lexemesFrom]
  split
  · rfl
  · next hc => exact nomatch h.symm.trans hc

/-- The first token of a text, and those behind it. -/
theorem lexemesFrom_of_cons {c : Char} {cs rest : List Char}
    (h : (splitBlanks false cs).2 = c :: rest) {place start : Nat}
    (hstart : place + byteLength (splitBlanks false cs).1 = start) :
    lexemesFrom place cs =
      (lexemesFrom (start + (scan c rest).width) (scan c rest).rest).behind
        [(scan c rest).tokenAt start] := by
  rw [lexemesFrom]
  split
  · next hc => exact nomatch h.symm.trans hc
  · next d ds hc =>
    obtain ⟨rfl, rfl⟩ := List.cons.inj (h.symm.trans hc)
    rw [hstart]
    rfl

/-- Blanks in front of a text only move it. -/
theorem lexemesFrom_blanks {gap : List Char} (h : Blanks gap) (place : Nat) (cs : List Char) :
    lexemesFrom place (gap ++ cs) = lexemesFrom (place + byteLength gap) cs := by
  have hgap : byteLength (splitBlanks false (gap ++ cs)).1 =
      byteLength gap + byteLength (splitBlanks false cs).1 := by
    rw [h.splitBlanks_eq, byteLength_append]
  cases hcs : (splitBlanks false cs).2 with
  | nil =>
    rw [lexemesFrom_of_nil hcs, lexemesFrom_of_nil (by rw [h.splitBlanks, hcs]), hgap, Nat.add_assoc]
  | cons c rest =>
    rw [lexemesFrom_of_cons hcs rfl]
    exact lexemesFrom_of_cons (by rw [h.splitBlanks, hcs]) (by rw [hgap, Nat.add_assoc])

/-- A text that starts with a token. -/
theorem lexemesFrom_cons {c : Char} (h : c ∉ separators) (place : Nat) (cs : List Char) :
    lexemesFrom place (c :: cs) =
      (lexemesFrom (place + (scan c cs).width) (scan c cs).rest).behind
        [(scan c cs).tokenAt place] :=
  lexemesFrom_of_cons (splitBlanks_of_not_mem h) (by rw [splitBlanks_cons h]; rfl)

/-- A text is blank, or it is blanks, a lexeme and a text. -/
theorem text_induction {motive : Nat → List Char → Prop}
    (blank : ∀ place cs, (splitBlanks false cs).2 = [] → motive place cs)
    (token : ∀ place gap c rest, Blanks gap → c ∉ separators →
      motive (place + byteLength gap + (scan c rest).width) (scan c rest).rest →
        motive place (gap ++ c :: rest))
    (place : Nat) (cs : List Char) : motive place cs := by
  fun_induction lexemesFrom place cs with
  | case1 place cs start h => exact blank place cs h
  | case2 place cs start c rest h s later ih =>
    have hall := splitBlanks_append false cs
    have hgap : Blanks (splitBlanks false cs).1 := blanks_of_splitBlanks false cs (by simp [h])
    rw [h] at hall
    rw [← hall]
    exact token place _ c rest hgap (not_mem_separators_of_splitBlanks h) ih

/-- The first token of a text, and those behind it. -/
theorem lexemesFrom_front {gap : List Char} (hgap : Blanks gap) {c : Char} (hc : c ∉ separators)
    (place : Nat) (cs : List Char) :
    lexemesFrom place (gap ++ c :: cs) =
      (lexemesFrom (place + byteLength gap + (scan c cs).width) (scan c cs).rest).behind
        [(scan c cs).tokenAt (place + byteLength gap)] := by
  rw [lexemesFrom_blanks hgap, lexemesFrom_cons hc]

/-- A text is cut alike wherever it begins. -/
theorem lexemesFrom_add (n place : Nat) (cs : List Char) :
    lexemesFrom (place + n) cs = (lexemesFrom place cs).move (· + n) := by
  induction place, cs using text_induction with
  | blank place cs h =>
    rw [lexemesFrom_of_nil h, lexemesFrom_of_nil h]
    simp only [Lexed.move, List.map_nil, Nat.add_right_comm]
  | token place gap c rest hgap hc ih =>
    rw [lexemesFrom_front hgap hc, lexemesFrom_front hgap hc, Nat.add_right_comm place n,
      Nat.add_right_comm (place + _) n, ih]
    simp [Lexed.behind, Lexed.move, Scan.tokenAt, Token.move, Span.move, Nat.add_right_comm]

/-- No token starts in front of its text. -/
theorem le_start_of_mem {place : Nat} {cs : List Char} {t : Token}
    (h : t ∈ (lexemesFrom place cs).tokens) : place ≤ t.span.start := by
  induction place, cs using text_induction with
  | blank place cs hnone =>
    rw [lexemesFrom_of_nil hnone] at h
    exact absurd h List.not_mem_nil
  | token place gap c rest hgap hc ih =>
    rw [lexemesFrom_front hgap hc] at h
    obtain rfl | hlater := List.mem_cons.mp h
    · exact Nat.le_add_right ..
    · have := ih hlater
      omega

/-- A string that is open at the end of the text, with a backslash there that claims nothing. -/
def IsOpenString (cs : List Char) : Prop := ∃ body, QuotedPart body ∧ cs = '"' :: (body ++ ['\\'])

/-- A scan that took an open string, with one byte claimed behind the end of the text. -/
structure Scan.Overruns (s : Scan) : Prop where
  stray : s.kind = .stray
  one : s.beyond = 1
  all : s.rest = []
  isOpen : IsOpenString s.taken

theorem scanString_overruns {cs : List Char} (h : (scanString cs).beyond ≠ 0) :
    ((scanString cs).after ['"']).Overruns := by
  fun_induction scanString cs with
  | case1 | case2 | case3 => exact absurd rfl h
  | case4 => exact ⟨rfl, rfl, rfl, [], .nil, rfl⟩
  | case5 c cs ih =>
    obtain ⟨hkind, hone, hall, body, hbody, htaken⟩ := ih h
    refine ⟨hkind, hone, hall, '\\' :: c :: body, .escaped hbody, ?_⟩
    simpa [Scan.after] using htaken
  | case6 c cs hfeed hquote hlast hslash ih =>
    obtain ⟨hkind, hone, hall, body, hbody, htaken⟩ := ih h
    refine ⟨hkind, hone, hall, c :: body, .plain ?_ hbody, ?_⟩
    · exact not_mem_of_passed hfeed hquote hlast hslash
    · simpa [Scan.after] using htaken

theorem scanBlockString_beyond (cs : List Char) : (scanBlockString cs).beyond = 0 := by
  fun_induction scanBlockString cs with
  | case1 | case2 => rfl
  | case3 cs ih | case4 c cs _ _ ih => exact ih

/-- Only an open string claims something behind the end of the text. -/
theorem scan_overruns {c : Char} {cs : List Char} (h : (scan c cs).beyond ≠ 0) :
    (scan c cs).Overruns := by
  revert h
  unfold scan
  split
  · fun_cases scanPoints cs <;> exact fun h => absurd rfl h
  split
  · fun_cases scanQuoted cs with
    | case1 cs => exact fun h => absurd (scanBlockString_beyond cs) h
    | case2 => exact scanString_overruns
  split
  · exact fun h => absurd (scanUnsigned_beyond _ _) h
  split
  · exact fun h => absurd (scanUnsigned_beyond _ _) h
  split
  · exact fun h => absurd rfl h
  split <;> exact fun h => absurd rfl h

/-- A token with text behind it claims nothing behind the end of the text. -/
theorem scan_beyond {c : Char} {cs : List Char} (h : (scan c cs).rest ≠ []) :
    (scan c cs).beyond = 0 := by
  by_contra hbeyond
  exact h (scan_overruns hbeyond).all

/-- A token stands in its text, where the scanner found it. -/
theorem token_splits {place : Nat} {cs : List Char} {t : Token}
    (h : t ∈ (lexemesFrom place cs).tokens) :
    ∃ before c behind, cs = before ++ c :: behind ∧ c ∉ separators ∧
      t = (scan c behind).tokenAt (place + byteLength before) := by
  induction place, cs using text_induction with
  | blank place cs hnone =>
    rw [lexemesFrom_of_nil hnone] at h
    exact absurd h List.not_mem_nil
  | token place gap c rest hgap hc ih =>
    rw [lexemesFrom_front hgap hc] at h
    obtain rfl | hlater := List.mem_cons.mp h
    · exact ⟨gap, c, rest, rfl, hc, rfl⟩
    · obtain ⟨before, d, behind, hrest, hd, rfl⟩ := ih hlater
      have hsplit : (scan c rest).taken ++ (scan c rest).rest = c :: rest := scan_split c rest
      refine ⟨gap ++ ((scan c rest).taken ++ before), d, behind, ?_, hd, ?_⟩
      · rw [← hsplit, hrest]
        simp
      · -- There is text behind the first token, so it claims no more than it takes.
        rw [Scan.width, scan_beyond (by simp [hrest])]
        simp only [byteLength_append, Nat.add_zero, Nat.add_assoc]

/-- A lexeme that does not go behind the end `y` of a text leaves all of it. -/
theorem scan_rest_of_width_le {x y : List Char} {c : Char}
    (h : (scan c (x ++ y)).width ≤ byteLength (c :: x)) (hy : y ≠ []) :
    ∃ r, (scan c (x ++ y)).rest = r ++ y ∧
      byteLength (c :: x) = (scan c (x ++ y)).width + byteLength r := by
  have hsplit : (scan c (x ++ y)).taken ++ (scan c (x ++ y)).rest = c :: x ++ y :=
    scan_split c (x ++ y)
  obtain ⟨r, htaken, hrest⟩ : ∃ r, c :: x = (scan c (x ++ y)).taken ++ r ∧
      (scan c (x ++ y)).rest = r ++ y := by
    obtain ⟨r, hx, hrest⟩ | ⟨q, htaken, hy⟩ := List.append_eq_append_iff.mp hsplit
    · exact ⟨r, hx, hrest⟩
    · have hbytes := congrArg byteLength htaken
      rw [byteLength_append] at hbytes
      obtain rfl : q = [] := byteLength_eq_zero.mp (by simp only [Scan.width] at h; omega)
      exact ⟨[], by rw [htaken, List.append_nil, List.append_nil], hy.symm⟩
  refine ⟨r, hrest, ?_⟩
  rw [Scan.width, scan_beyond (by simp [hrest, hy]), Nat.add_zero, ← byteLength_append, ← htaken]

/-- **A text cut where a token starts.** If a token starts where the end `y` of a text begins, the
tokens in front of it are the same whatever stands there instead. The induction is on the text as it
is cut. -/
theorem lexemesFrom_cut {y z : List Char} (hex : Exchange y z) {place : Nat} {x : List Char}
    {t : Token} (ht : t ∈ (lexemesFrom place (x ++ y)).tokens)
    (hstart : t.span.start = place + byteLength x) :
    ∃ front, ∀ w ∈ [y, z], lexemesFrom place (x ++ w) =
      (lexemesFrom (place + byteLength x) w).behind front := by
  generalize htext : x ++ y = cs at ht
  induction place, cs using text_induction generalizing x with
  | blank place cs hnone =>
    rw [lexemesFrom_of_nil hnone] at ht
    exact absurd ht List.not_mem_nil
  | token place gap c rest hgap hc ih =>
    rw [lexemesFrom_front hgap hc] at ht
    have hge : place + byteLength gap ≤ t.span.start := by
      obtain rfl | hlater := List.mem_cons.mp ht
      · exact Nat.le_refl _
      · exact Nat.le_trans (Nat.le_add_right ..) (le_start_of_mem hlater)
    -- The cut is behind the blanks: no token starts inside them.
    obtain ⟨x, rfl, hrest⟩ : ∃ x', x = gap ++ x' ∧ c :: rest = x' ++ y := by
      obtain ⟨q, rfl, hy⟩ | hfront := List.append_eq_append_iff.mp htext
      · rw [byteLength_append] at hge
        obtain rfl : q = [] := byteLength_eq_zero.mp (by omega)
        exact ⟨[], by simp, hy.symm⟩
      · exact hfront
    cases x with
    | nil => exact ⟨[], fun w _ => by rw [List.append_nil, lexemesFrom_blanks hgap]; rfl⟩
    | cons d x =>
      rw [List.cons_append, List.cons.injEq] at hrest
      obtain ⟨rfl, rfl⟩ := hrest
      rw [byteLength_append] at hstart
      have hpos : 0 < byteLength (c :: x) := by
        have := c.utf8Size_pos
        simp only [byteLength]
        omega
      -- The first token starts in front of the cut, so `t` is one of those behind it.
      have hlater : t ∈ (lexemesFrom (place + byteLength gap + (scan c (x ++ y)).width)
          (scan c (x ++ y)).rest).tokens := by
        refine (List.mem_cons.mp ht).resolve_left ?_
        rintro rfl
        simp only [Scan.tokenAt] at hstart
        omega
      have hle := le_start_of_mem hlater
      obtain ⟨r, hr, hwidth⟩ := scan_rest_of_width_le (x := x) (c := c) (by omega) hex.ne_nil
      obtain ⟨front, hfront⟩ := ih (by omega) hr.symm hlater
      -- The scanner takes the first token alike in front of either end.
      have hscan : ∀ w ∈ [y, z], scan c (x ++ w) = { scan c (x ++ y) with rest := r ++ w } := by
        simp only [List.forall_mem_cons, List.not_mem_nil, false_implies, implies_true, and_true]
        exact ⟨by rw [← hr], scan_exchange hex hr⟩
      refine ⟨(scan c (x ++ y)).tokenAt (place + byteLength gap) :: front, fun w hw => ?_⟩
      rw [List.append_assoc, List.cons_append, lexemesFrom_front hgap hc, hscan w hw, byteLength_append,
        hwidth, ← Nat.add_assoc, ← Nat.add_assoc]
      have hnext := hfront w hw
      simp only [Scan.width] at hnext ⊢
      rw [hnext, Lexed.behind_behind]
      rfl

end ResolverContracts
