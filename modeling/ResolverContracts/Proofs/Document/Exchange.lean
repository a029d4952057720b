import ResolverContracts.Proofs.Document.Scanned
/-!
# Other ends of a text

What a scanner takes in front of a place does not depend on what stands there: if another text stands
there instead, it takes the same, as long as that text starts with a character at which no token goes
on (`Exchange`). A scanner looks some characters ahead, three at most, so this takes a look at each of
them: one that stops in front of a place did not decide by what stands behind it, or decides alike by a
character of this sort (`scan_exchange`).
-/

set_option autoImplicit false

namespace ResolverContracts

/-- The characters at which no token goes on: those between tokens, and the closing brace. -/
def fences : List Char := '}' :: separators

/-- A text that starts with such a character. -/
inductive Fenced : List Char → Prop
  | intro {c : Char} {cs : List Char} (h : c ∈ fences) : Fenced (c :: cs)

/-- The second text may stand where the first one does, without a change in front of it. -/
structure Exchange (y z : List Char) : Prop where
  ne_nil : y ≠ []
  no_feed : y.head? ≠ some '\n'
  fenced : Fenced z

/-- No fence is in a class that none of them is in. -/
theorem eq_false_of_mem_fences {c : Char} (hc : c ∈ fences) {p : Char → Bool}
    (hp : fences.any p = false) : p c = false :=
  Bool.eq_false_iff.mpr (List.any_eq_false.mp hp c hc)

theorem ne_of_mem_fences {c d : Char} (hc : c ∈ fences) (hd : d ∉ fences) : c ≠ d :=
  fun heq => hd (heq ▸ hc)

theorem Fenced.stops {z : List Char} (h : Fenced z) {p : Char → Bool}
    (hp : fences.any p = false) : Stops p z := by
  obtain ⟨hc⟩ := h
  exact stops_cons (eq_false_of_mem_fences hc hp)

theorem Stops.takeWhile_eq_nil {p : Char → Bool} {z : List Char} (h : Stops p z) :
    z.takeWhile p = [] :=
  takeWhile_append_of_stops (List.forall_mem_nil _) h

section Exchange

variable {y z x r : List Char}

/-- What was taken in front of the end of a text is a front part of what stands there. -/
theorem eq_append_of_drop {w : List Char} (hw : w <+: x ++ y) (h : (x ++ y).drop w.length = r ++ y) :
    x = w ++ r := by
  have hall : w ++ (x ++ y).drop w.length = x ++ y := append_drop_of_isFront hw
  rw [h, ← List.append_assoc] at hall
  exact (List.append_cancel_right hall).symm

/-- Nothing is taken of a text that is left as a whole. -/
theorem eq_nil_of_drop {w : List Char} (hw : w <+: y) (h : y.drop w.length = r ++ y) : w = [] :=
  (List.append_eq_nil_iff.mp (eq_append_of_drop (x := []) hw h).symm).1

/-- Where the same is taken of both texts, both are left from the same place on. -/
theorem drop_exchange {w : List Char} (hw : w <+: x ++ y) (h : (x ++ y).drop w.length = r ++ y) :
    (x ++ z).drop w.length = r ++ z := by
  rw [eq_append_of_drop hw h, List.append_assoc, List.drop_left]

/-- If something taken ends in front of `y`, it starts in front of `y`. -/
theorem exists_rest {w cs : List Char} (hw : w <+: cs) (h : cs.drop w.length = r ++ y) :
    ∃ q, cs = q ++ y :=
  ⟨w ++ r, by rw [List.append_assoc, ← h, append_drop_of_isFront hw]⟩

/-! ## Numbers -/

/-- A run that ends inside the common part ends there with anything behind it. -/
theorem takeWhile_exchange {p : Char → Bool} (hz : Stops p z)
    (h : (x ++ y).drop ((x ++ y).takeWhile p).length = r ++ y) :
    (x ++ z).takeWhile p = (x ++ y).takeWhile p := by
  induction x with
  | nil =>
    rw [List.nil_append] at h ⊢
    rw [List.nil_append, hz.takeWhile_eq_nil, eq_nil_of_drop (List.takeWhile_prefix p) h]
  | cons c x ih =>
    by_cases hc : p c = true
    · simp only [List.cons_append, List.takeWhile_cons, hc, if_true, List.length_cons,
        List.drop_succ_cons] at h ⊢
      rw [ih h]
    · simp only [List.cons_append, List.takeWhile_cons, hc, if_false, Bool.false_eq_true]

/-- At a fence there are no digits, and neither is there a fraction nor an exponent. -/
theorem integerPart_of_fenced {z : List Char} (h : Fenced z) : integerPart z = [] := by
  obtain @⟨c, cs, hc⟩ := h
  have hzero : c ≠ '0' := ne_of_mem_fences hc (by decide)
  rw [integerPart.eq_2 _ (by simp [hzero])]
  exact (Fenced.stops ⟨hc⟩ (by decide)).takeWhile_eq_nil

/-- Each part of a number that leaves the end of the text alone is the same in front of another end. -/
theorem integerPart_exchange (hz : Fenced z)
    (h : (x ++ y).drop (integerPart (x ++ y)).length = r ++ y) :
    integerPart (x ++ z) = integerPart (x ++ y) := by
  cases x with
  | nil => rw [List.nil_append, integerPart_of_fenced hz, eq_nil_of_drop (integerPart_isFront _) h]
  | cons c x =>
    by_cases hzero : c = '0'
    · subst hzero
      rfl
    · simp only [List.cons_append] at h ⊢
      rw [integerPart.eq_2 _ (by simp [hzero])] at h ⊢
      rw [integerPart.eq_2 _ (by simp [hzero])]
      exact takeWhile_exchange (x := c :: x) (hz.stops (by decide)) h

theorem fractionPart_of_fenced {z : List Char} (h : Fenced z) : fractionPart z = [] := by
  obtain @⟨c, cs, hc⟩ := h
  simp [fractionPart, ne_of_mem_fences hc (d := '.') (by decide)]

theorem fractionPart_exchange (hy : y ≠ []) (hz : Fenced z)
    (h : (x ++ y).drop (fractionPart (x ++ y)).length = r ++ y) :
    fractionPart (x ++ z) = fractionPart (x ++ y) := by
  match x with
  | [] => rw [List.nil_append, fractionPart_of_fenced hz, eq_nil_of_drop (fractionPart_isFront _) h]
  | [c] =>
    -- A point at the very end: a digit behind it would have been taken.
    obtain ⟨d, ds, rfl⟩ := List.exists_cons_of_ne_nil hy
    have hfront := eq_append_of_drop (x := [c]) (fractionPart_isFront _) h
    obtain @⟨f, fs, hf⟩ := hz
    have hdigit : f.isDigit = false := eq_false_of_mem_fences hf (by decide)
    by_cases hpoint : c = '.'
    · subst hpoint
      by_cases hd : d.isDigit = true
      · simp [fractionPart, hd] at hfront
      · simp [fractionPart, hd, hdigit]
    · simp [fractionPart, hpoint]
  | c :: d :: x =>
    by_cases hpoint : c = '.'
    · subst hpoint
      by_cases hd : d.isDigit = true
      · simp only [List.cons_append, fractionPart, hd, if_true, List.length_cons,
          List.drop_succ_cons] at h ⊢
        rw [takeWhile_exchange (hz.stops (by decide)) h]
      · simp [fractionPart, hd]
    · simp [fractionPart, hpoint]

theorem exponentPart_of_fenced {z : List Char} (h : Fenced z) : exponentPart z = [] := by
  obtain @⟨c, cs, hc⟩ := h
  have hmark : (c == 'e' || c == 'E') = false :=
    eq_false_of_mem_fences (p := fun c => c == 'e' || c == 'E') hc (by decide)
  simp [exponentPart, hmark]

theorem exponentSign_exchange (hz : Fenced z)
    (h : (x ++ y).drop (exponentSign (x ++ y)).length = r ++ y) :
    exponentSign (x ++ z) = exponentSign (x ++ y) := by
  cases x with
  | nil =>
    obtain @⟨c, cs, hc⟩ := hz
    rw [List.nil_append, eq_nil_of_drop (exponentSign_isFront _) h]
    simp [exponentSign, ne_of_mem_fences hc (d := '+') (by decide),
      ne_of_mem_fences hc (d := '-') (by decide)]
  | cons c x =>
    clear h
    by_cases hplus : c = '+'
    · rw [hplus]
      rfl
    by_cases hminus : c = '-'
    · rw [hminus]
      rfl
    simp [exponentSign, hplus, hminus]

theorem exponentPart_exchange (hz : Fenced z)
    (h : (x ++ y).drop (exponentPart (x ++ y)).length = r ++ y) :
    exponentPart (x ++ z) = exponentPart (x ++ y) := by
  cases x with
  | nil => rw [List.nil_append, exponentPart_of_fenced hz, eq_nil_of_drop (exponentPart_isFront _) h]
  | cons c x =>
    by_cases hmark : (c == 'e' || c == 'E') = true
    · simp only [List.cons_append, exponentPart, hmark, if_true, List.length_cons,
        List.drop_succ_cons, List.length_append, ← List.drop_drop] at h ⊢
      -- The digits end in front of `y`, so the sign does.
      obtain ⟨q, hq⟩ := exists_rest (List.takeWhile_prefix _) h
      rw [exponentSign_exchange hz hq, drop_exchange (exponentSign_isFront _) hq, hq]
      rw [hq] at h
      rw [takeWhile_exchange (hz.stops (by decide)) h]
    · simp [exponentPart, hmark]

/-- A number. Each of its parts ends in front of `y`, because the one behind it does. -/
theorem scanUnsigned_exchange (hy : y ≠ []) (hz : Fenced z) {sign : List Char}
    (h : (scanUnsigned sign (x ++ y)).rest = r ++ y) :
    scanUnsigned sign (x ++ z) = { scanUnsigned sign (x ++ y) with rest := r ++ z } := by
  by_cases hwhole : integerPart (x ++ y) = []
  · have hrest : x ++ y = r ++ y := by simpa [scanUnsigned, hwhole] using h
    obtain rfl : x = r := List.append_cancel_right hrest
    have hnone : integerPart (x ++ z) = [] :=
      (integerPart_exchange (y := y) (r := x) hz (by simp [hwhole])).trans hwhole
    simp [scanUnsigned, hwhole, hnone]
  · simp only [scanUnsigned, List.isEmpty_iff, hwhole, if_false] at h
    obtain ⟨q, hq⟩ := exists_rest (exponentPart_isFront _) h
    obtain ⟨p, hp⟩ := exists_rest (fractionPart_isFront _) hq
    have hi := integerPart_exchange hz hp
    have hdi := drop_exchange (z := z) (integerPart_isFront _) hp
    rw [hp] at h hq
    have hf := fractionPart_exchange hy hz hq
    have hdf := drop_exchange (z := z) (fractionPart_isFront _) hq
    rw [hq] at h
    have he := exponentPart_exchange hz h
    have hde := drop_exchange (z := z) (exponentPart_isFront _) h
    simp only [scanUnsigned, List.isEmpty_iff, hi, hwhole, if_false, hp, hdi, hf, hdf, hq, he, hde]

/-! ## Strings -/

/-- A scan never leaves more than it was given, so it cannot end in front of where it started. -/
theorem length_rest_scanString (cs : List Char) : (scanString cs).rest.length ≤ cs.length := by
  have hsplit : (scanString cs).taken ++ (scanString cs).rest = cs := scanString_splits cs
  have hlength := congrArg List.length hsplit
  rw [List.length_append] at hlength
  omega

/-- In a string something is taken of every text that does not start with the end of the line. -/
theorem scanString_rest_ne (hy : y ≠ []) (hfeed : y.head? ≠ some '\n') :
    (scanString y).rest ≠ r ++ y := by
  intro h
  have hlength := congrArg List.length h
  rw [List.length_append] at hlength
  have hlt : (scanString y).rest.length < y.length := by
    fun_cases scanString y with
    | case1 => exact absurd rfl hy
    | case2 => exact absurd rfl hfeed
    | case3 cs => simp
    | case4 => simp
    | case5 c cs | case6 c cs =>
      have := length_rest_scanString cs
      simp only [Scan.after, List.length_cons]
      omega
  omega

theorem scanString_exchange (hex : Exchange y z) (h : (scanString (x ++ y)).rest = r ++ y) :
    scanString (x ++ z) = { scanString (x ++ y) with rest := r ++ z } := by
  fun_induction scanString x with
  | case1 => exact absurd h (scanString_rest_ne hex.ne_nil hex.no_feed)
  | case2 cs =>
    have hr : '\n' :: cs = r := List.append_cancel_right h
    rw [← hr]
    rfl
  | case3 cs =>
    have hr : cs = r := List.append_cancel_right h
    rw [← hr]
    rfl
  | case4 =>
    -- The backslash would claim a character behind it.
    obtain ⟨c, cs, rfl⟩ := List.exists_cons_of_ne_nil hex.ne_nil
    have hlength := congrArg List.length h
    have hle := length_rest_scanString cs
    simp only [List.cons_append, List.nil_append, scanString, Scan.after, List.length_append,
      List.length_cons] at hlength
    omega
  | case5 c cs ih =>
    simp only [List.cons_append, scanString] at h ⊢
    rw [ih h]
    rfl
  | case6 c cs hfeed hquote hlast hslash ih =>
    have hc : c ≠ '\\' := by
      intro heq
      cases cs with
      | nil => exact hlast heq rfl
      | cons d ds => exact hslash d ds heq rfl
    have hplain (w : List Char) : scanString (c :: (cs ++ w)) = (scanString (cs ++ w)).after [c] :=
      scanString.eq_6 _ _ hfeed hquote (by simp [hc]) (by simp [hc])
    rw [List.cons_append, hplain] at h
    rw [List.cons_append, List.cons_append, hplain, hplain, ih h]
    rfl

theorem exists_three_cons {cs : List Char} (h : 3 ≤ cs.length) :
    ∃ a b c ds, cs = a :: b :: c :: ds := by
  obtain ⟨a, as, rfl⟩ := List.exists_cons_of_length_pos (l := cs) (by omega)
  rw [List.length_cons] at h
  obtain ⟨b, bs, rfl⟩ := List.exists_cons_of_length_pos (l := as) (by omega)
  rw [List.length_cons] at h
  obtain ⟨c, ds, rfl⟩ := List.exists_cons_of_length_pos (l := bs) (by omega)
  exact ⟨a, b, c, ds, rfl⟩

/-- A block string that does not run to the end of the text has quotes to close it. -/
theorem three_le_taken_of_rest {cs : List Char} (h : (scanBlockString cs).rest ≠ []) :
    3 ≤ (scanBlockString cs).taken.length := by
  fun_induction scanBlockString cs with
  | case1 => exact absurd rfl h
  | case2 cs => simp
  | case3 cs ih => simp [Scan.after]
  | case4 c cs hclose hescape ih =>
    have := ih h
    simp only [Scan.after, List.length_append, List.length_cons, List.length_nil]
    omega

theorem scanBlockString_rest_ne (hy : y ≠ []) : (scanBlockString y).rest ≠ r ++ y := by
  intro h
  have hsplit : (scanBlockString y).taken ++ (scanBlockString y).rest = y := scanBlockString_splits y
  have hlength := congrArg List.length hsplit
  have hrest := congrArg List.length h
  have := three_le_taken_of_rest (show (scanBlockString y).rest ≠ [] by rw [h]; simp [hy])
  rw [List.length_append] at hlength hrest
  omega

/-- Quotes that close a block string in front of `y`, or stand behind a backslash there, do so without
`y`. -/
theorem scanBlockString_behind {c : Char} {cs : List Char}
    (hclose : ∀ ds, c = '"' → cs = '"' :: '"' :: ds → False)
    (hescape : ∀ ds, c = '\\' → cs = '"' :: '"' :: '"' :: ds → False)
    (h : (scanBlockString (c :: (cs ++ y))).rest = r ++ y) :
    scanBlockString (c :: (cs ++ y)) = (scanBlockString (cs ++ y)).after [c] := by
  refine scanBlockString.eq_4 _ _ (fun ds hc hds => ?_) fun ds hc hds => ?_
  · rw [hc, hds] at h
    have hrest : ds = r ++ y := h
    rw [hrest, ← List.cons_append, ← List.cons_append] at hds
    exact hclose r hc (List.append_cancel_right hds)
  · rw [hc, hds] at h
    have hrest : (scanBlockString ds).rest = r ++ y := h
    have hsplit : (scanBlockString ds).taken ++ (scanBlockString ds).rest = ds :=
      scanBlockString_splits ds
    rw [← hsplit, hrest, ← List.append_assoc, ← List.cons_append, ← List.cons_append,
      ← List.cons_append] at hds
    exact hescape _ hc (List.append_cancel_right hds)

/-- Three quotes that close a block string stand in the common part with all of their characters. -/
theorem scanBlockString_exchange (hex : Exchange y z)
    (h : (scanBlockString (x ++ y)).rest = r ++ y) :
    scanBlockString (x ++ z) = { scanBlockString (x ++ y) with rest := r ++ z } := by
  fun_induction scanBlockString x with
  | case1 => exact absurd h (scanBlockString_rest_ne hex.ne_nil)
  | case2 cs =>
    have hr : cs = r := List.append_cancel_right h
    rw [← hr]
    rfl
  | case3 cs ih =>
    simp only [List.cons_append, scanBlockString] at h ⊢
    rw [ih h]
    rfl
  | case4 c cs hclose hescape ih =>
    have hplain := scanBlockString_behind hclose hescape h
    rw [List.cons_append, hplain] at h
    have hrest : (scanBlockString (cs ++ y)).rest = r ++ y := h
    -- The quotes that close the string are still in front of `y`, so they decide about `c`.
    have hsplit : (scanBlockString (cs ++ y)).taken ++ (scanBlockString (cs ++ y)).rest = cs ++ y :=
      scanBlockString_splits _
    have hthree := three_le_taken_of_rest
      (show (scanBlockString (cs ++ y)).rest ≠ [] by rw [hrest]; simp [hex.ne_nil])
    rw [hrest, ← List.append_assoc] at hsplit
    obtain ⟨a, b, d, ds, rfl⟩ : ∃ a b d ds, cs = a :: b :: d :: ds := by
      refine exists_three_cons ?_
      rw [← List.append_cancel_right hsplit, List.length_append]
      omega
    have hplain' : scanBlockString (c :: (a :: b :: d :: ds ++ z)) =
        (scanBlockString (a :: b :: d :: ds ++ z)).after [c] := by
      refine scanBlockString.eq_4 _ _ (fun es hc hes => ?_) fun es hc hes => ?_
      · simp only [List.cons_append, List.cons.injEq] at hes
        exact hclose (d :: ds) hc (by rw [hes.1, hes.2.1])
      · simp only [List.cons_append, List.cons.injEq] at hes
        exact hescape ds hc (by rw [hes.1, hes.2.1, hes.2.2.1])
    change scanBlockString (c :: (a :: b :: d :: ds ++ z)) =
      { scanBlockString (c :: (a :: b :: d :: ds ++ y)) with rest := r ++ z }
    rw [hplain', hplain, ih hrest]
    rfl

/-- A text does not start with a character twice because of another end of it. -/
theorem ne_twice_of_exchange (hz : Fenced z) {e : Char} (he : e ∉ fences)
    (hy : ∀ ds, x ++ y ≠ e :: e :: ds) : ∀ ds, x ++ z ≠ e :: e :: ds := by
  intro ds hds
  obtain @⟨f, fs, hf⟩ := hz
  have hfence : f ≠ e := ne_of_mem_fences hf he
  match x with
  | [] => exact hfence (List.cons.inj hds).1
  | [c] => exact hfence (List.cons.inj (List.cons.inj hds).2).1
  | c :: d :: x =>
    simp only [List.cons_append, List.cons.injEq] at hds
    exact hy (x ++ y) (by rw [hds.1, hds.2.1]; rfl)

/-- Which kind of string it is depends on the first three characters, which are common to both texts or
decide nothing. -/
theorem scanQuoted_exchange (hex : Exchange y z) (h : (scanQuoted (x ++ y)).rest = r ++ y) :
    scanQuoted (x ++ z) = { scanQuoted (x ++ y) with rest := r ++ z } := by
  by_cases hblock : ∃ ds, x ++ y = '"' :: '"' :: ds
  · obtain ⟨ds, hds⟩ := hblock
    rw [hds] at h
    have hrest : (scanBlockString ds).rest = r ++ y := h
    have hsplit : (scanBlockString ds).taken ++ (scanBlockString ds).rest = ds :=
      scanBlockString_splits ds
    generalize (scanBlockString ds).taken = taken at hsplit
    rw [hrest, ← List.append_assoc] at hsplit
    obtain rfl : x = '"' :: '"' :: (taken ++ r) := by
      rw [← hsplit] at hds
      exact List.append_cancel_right hds
    rw [← hsplit] at hrest
    simp only [List.cons_append, scanQuoted]
    rw [scanBlockString_exchange hex hrest]
    rfl
  · rw [not_exists] at hblock
    have hplain := scanQuoted.eq_2 (x ++ y) hblock
    rw [hplain] at h ⊢
    rw [scanQuoted.eq_2 (x ++ z) (ne_twice_of_exchange hex.fenced (by decide) hblock),
      scanString_exchange hex h]
    rfl

/-! ## All lexemes -/

theorem scanPoints_exchange (hex : Exchange y z) (h : (scanPoints (x ++ y)).rest = r ++ y) :
    scanPoints (x ++ z) = { scanPoints (x ++ y) with rest := r ++ z } := by
  by_cases hpoints : ∃ ds, x ++ y = '.' :: '.' :: ds
  · obtain ⟨ds, hds⟩ := hpoints
    rw [hds] at h
    have hrest : ds = r ++ y := h
    obtain rfl : x = '.' :: '.' :: r := by
      rw [hrest] at hds
      exact List.append_cancel_right hds
    rfl
  · rw [not_exists] at hpoints
    have hplain := scanPoints.eq_2 (x ++ y) hpoints
    rw [hplain] at h
    obtain rfl : x = r := List.append_cancel_right h
    rw [hplain, scanPoints.eq_2 (x ++ z) (ne_twice_of_exchange hex.fenced (by decide) hpoints)]

theorem drop_length_takeWhile (p : Char → Bool) (cs : List Char) :
    cs.drop (cs.takeWhile p).length = cs.dropWhile p := by
  have hall : cs.takeWhile p ++ cs.drop (cs.takeWhile p).length = cs :=
    append_drop_of_isFront (List.takeWhile_prefix p)
  exact List.append_cancel_left (hall.trans List.takeWhile_append_dropWhile.symm)

theorem scanWord_exchange (hz : Fenced z) {c : Char} (h : (scanWord c (x ++ y)).rest = r ++ y) :
    scanWord c (x ++ z) = { scanWord c (x ++ y) with rest := r ++ z } := by
  have hrest : (x ++ y).drop ((x ++ y).takeWhile isNameChar).length = r ++ y := by
    rwa [drop_length_takeWhile]
  have htake := takeWhile_exchange (hz.stops (by decide)) hrest
  have hleft := drop_exchange (z := z) (List.takeWhile_prefix _) hrest
  rw [← htake, drop_length_takeWhile] at hleft
  simp only [scanWord, htake, hleft]

/-- **What stands behind decides nothing.** If a scanner stops in front of the end `y` of a text, it
takes the same where another end stands there. -/
theorem scan_exchange (hex : Exchange y z) {c : Char} (h : (scan c (x ++ y)).rest = r ++ y) :
    scan c (x ++ z) = { scan c (x ++ y) with rest := r ++ z } := by
  by_cases hpoint : c = '.'
  · rw [hpoint] at h ⊢
    exact scanPoints_exchange hex h
  by_cases hquote : c = '"'
  · rw [hquote] at h ⊢
    exact scanQuoted_exchange hex h
  by_cases hminus : c = '-'
  · rw [hminus] at h ⊢
    exact scanUnsigned_exchange hex.ne_nil hex.fenced h
  by_cases hdigit : c.isDigit = true
  · rw [scan_of_isDigit _ hdigit] at h ⊢
    rw [scan_of_isDigit _ hdigit]
    exact scanUnsigned_exchange (x := c :: x) hex.ne_nil hex.fenced h
  by_cases hname : isNameStart c = true
  · rw [scan_of_isNameStart _ hname] at h ⊢
    rw [scan_of_isNameStart _ hname]
    exact scanWord_exchange hex.fenced h
  simp only [scan, beq_iff_eq, hpoint, hquote, hminus, hdigit, hname, Bool.false_eq_true, if_false] at h ⊢
  cases hmark : Punctuator.ofChar? c with
  | some p | none =>
    simp only [hmark] at h ⊢
    rw [List.append_cancel_right h]

end Exchange

end ResolverContracts
