import ResolverContracts.Document.Parts
import ResolverContracts.Proofs.Document.Grammar
/-!
# What readers read

`r.Reads ls F P` says what a reader does with tokens that are as they should be: standing before the
row `ls`, it takes exactly this row, finds no fault, and gives an answer with the property `P`. A
reader looks one token ahead to see whether a part goes on, so this holds only where the token behind
the row is not one by which the part would go on. `F` says so of its kind.

The rules follow the ways to build a reader. Where one reader stands behind the other, the second row
must start as the first reader wants it, which is the only thing to show there; `Avoids` and
`Offers` are for that.
-/

set_option autoImplicit false

namespace ResolverContracts

open Lexeme (word keyword mark)

/-! ## The next token -/

/-- The kind of the first token of a row. Behind the last one the text ends. -/
def nextKind : List Lexeme → TokenKind
  | [] => .endOfText
  | l :: _ => l.kind

/-- The tokens ahead without their places. -/
def Cursor.lexemes (c : Cursor) : List Lexeme := c.ahead.map Token.lexeme

theorem Cursor.kind_eq_nextKind (c : Cursor) : c.kind = nextKind c.lexemes := by
  unfold kind current lexemes
  cases c.ahead with
  | nil => rfl
  | cons t ts => rfl

theorem Cursor.lexemes_advance (c : Cursor) : c.advance.lexemes = c.lexemes.tail := by
  simp [lexemes, advance]

theorem Cursor.left_eq_length (c : Cursor) : c.left = c.lexemes.length := by
  simp [lexemes, c.left_eq]

/-- The token at which a cursor stands, as the row ahead has it. -/
theorem Cursor.lexeme_current {c : Cursor} {l : Lexeme} {ls : List Lexeme}
    (h : c.lexemes = l :: ls) : c.current.lexeme = l := by
  unfold lexemes at h
  unfold current
  cases hc : c.ahead with
  | nil => simp [hc] at h
  | cons t ts =>
    rw [hc, List.map_cons, List.cons.injEq] at h
    exact h.1

theorem Cursor.kind_of_lexemes {c : Cursor} {l : Lexeme} {ls : List Lexeme}
    (h : c.lexemes = l :: ls) : c.kind = l.kind := by
  rw [c.kind_eq_nextKind, h]
  rfl

/-- The row behind the token at which a cursor stands. -/
theorem Cursor.lexemes_advance_of {c : Cursor} {l : Lexeme} {ls : List Lexeme}
    (h : c.lexemes = l :: ls) : c.advance.lexemes = ls := by
  rw [c.lexemes_advance, h]
  rfl

/-- None of these kinds. -/
def Avoids (ks : List TokenKind) (k : TokenKind) : Prop := k ∉ ks

instance (ks : List TokenKind) (k : TokenKind) : Decidable (Avoids ks k) :=
  inferInstanceAs (Decidable (k ∉ ks))

/-- A row that starts with a token of one of these kinds, if it has any token. -/
def Offers (ks : List TokenKind) (ls : List Lexeme) : Prop := ∀ l ∈ ls.head?, l.kind ∈ ks

theorem offers_nil (ks : List TokenKind) : Offers ks [] := by simp [Offers]

theorem offers_cons {ks : List TokenKind} {l : Lexeme} {ls : List Lexeme} (h : l.kind ∈ ks) :
    Offers ks (l :: ls) := by
  simpa [Offers] using h

theorem Offers.mono {ks js : List TokenKind} {ls : List Lexeme} (h : Offers ks ls)
    (hks : ∀ k ∈ ks, k ∈ js) : Offers js ls :=
  fun l hl => hks _ (h l hl)

/-- Two parts behind each other may start with the second one, if the first is left out. -/
theorem Offers.append {ks js : List TokenKind} {ls more : List Lexeme} (hls : Offers ks ls)
    (hmore : Offers js more) : Offers (ks ++ js) (ls ++ more) := by
  cases ls with
  | nil => exact fun l hl => List.mem_append_right _ (hmore l hl)
  | cons l ls => exact offers_cons (List.mem_append_left _ (hls l rfl))

/-- What follows an optional part is as wanted if the part starts with none of the kinds in question,
and what stands behind the part is as wanted, too. -/
theorem Offers.avoids {ks js is : List TokenKind} {ls rest : List Lexeme} (h : Offers js ls)
    (hrest : Avoids is (nextKind rest)) (hks : ∀ k ∈ ks, k ∈ is ∧ k ∉ js) :
    Avoids ks (nextKind (ls ++ rest)) := by
  intro hk
  cases ls with
  | nil => exact hrest (hks _ hk).1
  | cons l ls => exact (hks _ hk).2 (h l rfl)

theorem Avoids.mono {ks js : List TokenKind} {k : TokenKind} (h : Avoids js k)
    (hks : ∀ i ∈ ks, i ∈ js) : Avoids ks k :=
  fun hk => h (hks k hk)

/-- A word is none of any kinds that are no names. -/
theorem avoids_word {ks : List TokenKind} (text : String) (hks : ∀ k ∈ ks, k.isName = false) :
    Avoids ks (word text).kind := by
  intro hk
  have := hks _ hk
  simp [Lexeme.isName_word] at this

/-- A row that starts with a token, and one of a kind for which this holds. -/
def StartsAs (S : TokenKind → Prop) (ls : List Lexeme) : Prop := ∃ l more, ls = l :: more ∧ S l.kind

theorem StartsAs.mono {S T : TokenKind → Prop} {ls : List Lexeme} (h : StartsAs S ls)
    (hS : ∀ k, S k → T k) : StartsAs T ls := by
  obtain ⟨l, more, rfl, hl⟩ := h
  exact ⟨l, more, rfl, hS _ hl⟩

/-! ## Steps -/

/-- The step has an answer of this sort, leaves this row ahead, and finds no fault. -/
structure Step.Leaves {α : Type} {c : Cursor} (s : Step c α) (rest : List Lexeme) (P : α → Prop) :
    Prop where
  answer : P s.1.1
  lexemes : s.1.2.lexemes = rest
  faults : s.1.2.faults = c.faults

theorem Step.Leaves.since {α : Type} {c d : Cursor} {s : Step d α} {rest : List Lexeme}
    {P : α → Prop} (h : s.Leaves rest P) (hd : d.ahead <:+ c.ahead) (hfaults : d.faults = c.faults) :
    (s.since hd : Step c α).Leaves rest P where
  answer := h.answer
  lexemes := h.lexemes
  faults := h.faults.trans hfaults

namespace Reader

variable {α β : Type}

/-- Before the row `ls` and a token of a kind for which `F` holds, the reader takes the row, finds no
fault, and its answer has the property. -/
def Reads (r : Reader α) (ls : List Lexeme) (F : TokenKind → Prop) (P : α → Prop) : Prop :=
  ∀ (c : Cursor) (rest : List Lexeme), c.lexemes = ls ++ rest → F (nextKind rest) →
    (r c).Leaves rest P

/-- Any token may follow. -/
def Anything : TokenKind → Prop := fun _ => True

/-- A step already made, and a reader behind it. -/
theorem Reads.andThen {c : Cursor} {s : Step c α} {next : α → Reader β} {ls rest : List Lexeme}
    {F : TokenKind → Prop} {P : α → Prop} {Q : β → Prop} (hs : s.Leaves (ls ++ rest) P)
    (hnext : ∀ a, P a → (next a).Reads ls F Q) (hrest : F (nextKind rest)) :
    (s.andThen next).Leaves rest Q := by
  have hq : (next s.1.1 s.1.2).Leaves rest Q := hnext _ hs.answer s.1.2 rest hs.lexemes hrest
  exact hq.since s.2 hs.faults

namespace Reads

variable {r : Reader α} {next : α → Reader β} {ls more : List Lexeme} {F G : TokenKind → Prop}
  {P : α → Prop} {Q : β → Prop}

theorem pure {a : α} (h : P a) : Reads (Pure.pure a) [] F P :=
  fun _ _ hc _ => ⟨h, hc, rfl⟩

/-- One reader behind the other, each with its own row. -/
theorem bind (hr : r.Reads ls F P) (hnext : ∀ a, P a → (next a).Reads more G Q)
    (hfollow : ∀ rest, G (nextKind rest) → F (nextKind (more ++ rest))) :
    (r >>= next).Reads (ls ++ more) G Q := by
  intro c rest hc hrest
  rw [List.append_assoc] at hc
  exact Reads.andThen (hr c (more ++ rest) hc (hfollow rest hrest)) hnext hrest

/-- A reader of one token, which any token may follow. -/
theorem token {l : Lexeme} (hr : r.Reads [l] Anything P)
    (hnext : ∀ a, P a → (next a).Reads more G Q) : (r >>= next).Reads (l :: more) G Q :=
  bind hr hnext fun _ _ => trivial

/-- The last reader that takes anything. -/
theorem last (hr : r.Reads ls F P) (hnext : ∀ a, P a → (next a).Reads [] F Q) :
    (r >>= next).Reads ls F Q := by
  have h := bind hr hnext fun _ hrest => hrest
  rwa [List.append_nil] at h

/-- A reader that takes nothing and fits anywhere. -/
theorem peek (hr : r.Reads [] Anything P) (hnext : ∀ a, P a → (next a).Reads ls F Q) :
    (r >>= next).Reads ls F Q :=
  bind hr hnext fun _ _ => trivial

/-- Less may be said of the answer. -/
theorem imp {R : α → Prop} (h : r.Reads ls F P) (hP : ∀ a, P a → R a) : r.Reads ls F R := by
  intro c rest hc hrest
  obtain ⟨ha, hl, hf⟩ := h c rest hc hrest
  exact ⟨hP _ ha, hl, hf⟩

/-- Less may follow. -/
theorem before (h : r.Reads ls F P) (hF : ∀ k, G k → F k) : r.Reads ls G P :=
  fun c rest hc hrest => h c rest hc (hF _ hrest)

theorem anywhere (h : r.Reads ls Anything P) : r.Reads ls F P := h.before fun _ _ => trivial

theorem avoiding {ks js : List TokenKind} (h : r.Reads ls (Avoids ks) P) (hks : ∀ k ∈ ks, k ∈ js) :
    r.Reads ls (Avoids js) P :=
  h.before fun _ hk => hk.mono hks

theorem map {f : α → β} (h : r.Reads ls F fun a => Q (f a)) : (f <$> r).Reads ls F Q :=
  fun c rest hc hrest => (h c rest hc hrest).casesOn fun ha hl hf => ⟨ha, hl, hf⟩

/-- Two readers that do the same at the row read the same. -/
theorem of_run {s : Reader α} (h : s.Reads ls F P)
    (hrun : ∀ c rest, c.lexemes = ls ++ rest → run r c = run s c) : r.Reads ls F P := by
  intro c rest hc hrest
  obtain ⟨ha, hl, hf⟩ := h c rest hc hrest
  have heq : (r c).1 = (s c).1 := hrun c rest hc
  exact ⟨heq ▸ ha, heq ▸ hl, heq ▸ hf⟩

/-- Two readers in a row as one of their own, in front of a third one. -/
theorem assoc {γ : Type} {later : β → Reader γ} {R : γ → Prop}
    (h : ((r >>= next) >>= later).Reads ls F R) : (r >>= fun a => next a >>= later).Reads ls F R :=
  h.of_run fun _ _ _ => rfl

/-- An answer that is always there. -/
theorem mapSome {γ : Type} {f : α → γ} {y : γ} (h : r.Reads ls F fun a => f a = y) :
    (some <$> r).Reads ls F fun o => o.map f = some y :=
  .map (h.imp fun _ ha => congrArg some ha)

end Reads

/-! ## Single tokens -/

theorem reads_place : place.Reads [] Anything fun _ => True :=
  fun _ _ hc _ => ⟨trivial, hc, rfl⟩

theorem reads_spanFrom (start : Nat) : (spanFrom start).Reads [] Anything fun _ => True :=
  fun _ _ hc _ => ⟨trivial, hc, rfl⟩

/-- An answer that needs the place of what was read. -/
theorem Reads.spanned {start : Nat} {f : Span → α} {F : TokenKind → Prop} {P : α → Prop}
    (h : ∀ span, P (f span)) :
    Reads (do return f (← spanFrom start)) [] F P :=
  .peek (reads_spanFrom start) fun span _ => .pure (h span)

/-- A look at the first token of a row. -/
theorem Reads.look {next : Token → Reader β} {l : Lexeme} {ls : List Lexeme} {F : TokenKind → Prop}
    {Q : β → Prop} (hnext : ∀ t : Token, t.lexeme = l → (next t).Reads (l :: ls) F Q) :
    (current >>= next).Reads (l :: ls) F Q := by
  intro c rest hc hrest
  exact hnext c.current (Cursor.lexeme_current hc) c rest hc hrest

/-- A look at the token behind the row. -/
theorem Reads.lookBehind {next : Token → Reader β} {F : TokenKind → Prop} {Q : β → Prop}
    (hnext : ∀ t : Token, F t.kind → (next t).Reads [] F Q) : (current >>= next).Reads [] F Q := by
  intro c rest hc hrest
  have hkind : F c.kind := by
    rw [c.kind_eq_nextKind, hc]
    exact hrest
  exact hnext c.current hkind c rest hc hrest

theorem reads_advance (l : Lexeme) : advance.Reads [l] Anything fun _ => True := by
  intro c rest hc _
  exact ⟨trivial, Cursor.lexemes_advance_of hc, rfl⟩

theorem reads_eat {l : Lexeme} {kind : TokenKind} (h : l.kind = kind) :
    (eat kind).Reads [l] Anything (· = true) := by
  refine .look fun t ht => ?_
  have hk : t.kind = kind := by rw [← h, ← ht]; rfl
  rw [if_pos hk]
  exact .last (reads_advance l) fun _ _ => .pure rfl

/-- Where the token is not there, nothing is taken. -/
theorem reads_eat_absent {kind : TokenKind} {F : TokenKind → Prop} (h : ∀ k, F k → k ≠ kind) :
    (eat kind).Reads [] F (· = false) := by
  refine .lookBehind fun t ht => ?_
  rw [if_neg (h t.kind ht)]
  exact .pure rfl

/-- A token that is left out is not found, as what follows is none of its kind. -/
theorem reads_eat_avoided (kind : TokenKind) :
    (eat kind).Reads [] (Avoids [kind]) (· = false) :=
  reads_eat_absent fun _ hk heq => hk (by simp [heq])

theorem reads_expect {l : Lexeme} {kind : TokenKind} (h : l.kind = kind) :
    (expect kind).Reads [l] Anything fun _ => True := by
  refine .last (reads_eat h) fun found hfound => ?_
  subst hfound
  exact .pure trivial

/-! ## Loops -/

section Loops

variable {γ : Type} {f : α → γ} {g : β → γ} {W : β → List Lexeme → Prop} {F : TokenKind → Prop}

/-- Items in a row up to the closing token. Each item starts with a token that is not the closing one
and may follow an item. The induction is on the row: behind an item the loop goes on as before. -/
theorem itemsBelow_leaves {xs : List β} {ls : List Lexeme} (hrow : Row W xs ls) {bound : Nat}
    {close : TokenKind} {item : (c : Cursor) → c.ahead.length < bound → Step c α}
    (hitem : ∀ x ∈ xs, ∀ us, W x us → ∀ c h rest, c.lexemes = us ++ rest → F (nextKind rest) →
      (item c h).Leaves rest fun a => f a = g x)
    (hstart : ∀ x ∈ xs, ∀ us, W x us → StartsAs (fun k => k ≠ close ∧ F k) us) (hclose : F close) :
    ∀ (c : Cursor) (h : c.ahead.length < bound) (rest : List Lexeme), c.lexemes = ls ++ rest →
      nextKind rest = close →
      (itemsBelow bound close item c h).Leaves rest fun as => as.map f = xs.map g := by
  induction hrow with
  | nil =>
    intro c h rest hc hrest
    have hend : c.atEndOf close = true := by
      simp [Cursor.atEndOf, c.kind_eq_nextKind, hc, hrest]
    unfold itemsBelow
    rw [dif_pos hend]
    exact ⟨rfl, hc, rfl⟩
  | @cons x xs us more hx hxs ih =>
    intro c h rest hc hrest
    obtain ⟨l, vs, rfl, hl, -⟩ := hstart x (List.mem_cons_self ..) us hx
    have hnext : F (nextKind (more ++ rest)) := by
      cases hxs with
      | nil => rwa [List.nil_append, hrest]
      | @cons y ys ys₁ ys₂ hy hys =>
        obtain ⟨l, vs, rfl, -, hF⟩ := hstart y (by simp) ys₁ hy
        exact hF
    have hfirst := hitem x (List.mem_cons_self ..) _ hx c h (more ++ rest)
      (by rw [hc, List.append_assoc]) hnext
    have hend : ¬ c.atEndOf close = true := by
      have hne : c.ahead ≠ [] := by
        intro hn
        simp [Cursor.lexemes, hn] at hc
      simp [Cursor.atEndOf, Cursor.kind_of_lexemes hc, hl, hne]
    -- The item took its first token at least, so the loop goes on right behind it.
    have hpast : pastItem c (item c h).1.2 = (item c h).1.2 := by
      refine if_pos ?_
      rw [c.left_eq_length, Cursor.left_eq_length, hfirst.lexemes, hc]
      simp only [List.length_append, List.length_cons]
      omega
    unfold itemsBelow
    rw [dif_neg hend]
    have hlt : (pastItem c (item c h).1.2).ahead.length < bound :=
      Nat.lt_trans (length_pastItem_lt (item c h).2 fun hn => hend (by simp [Cursor.atEndOf, hn])) h
    have hrest := ih (fun y hy => hitem y (List.mem_cons_of_mem _ hy))
      (fun y hy => hstart y (List.mem_cons_of_mem _ hy)) (pastItem c (item c h).1.2) hlt rest
      (by rw [hpast]; exact hfirst.lexemes) hrest
    refine ⟨?_, hrest.lexemes, ?_⟩
    · rw [List.map_cons, List.map_cons, ← hfirst.answer, ← hrest.answer]
    · refine hrest.faults.trans ?_
      rw [hpast]
      exact hfirst.faults

/-- A loop reads a row item by item. No item may start like the closing token, or the loop would stop
in front of it. -/
theorem reads_itemsUntil {xs : List β} {ls : List Lexeme} (hrow : Row W xs ls) {close : TokenKind}
    {item : Reader α} (hitem : ∀ x ∈ xs, ∀ us, W x us → item.Reads us F fun a => f a = g x)
    (hstart : ∀ x ∈ xs, ∀ us, W x us → StartsAs (fun k => k ≠ close ∧ F k) us) (hclose : F close) :
    (itemsUntil close item).Reads ls (· = close) fun as => as.map f = xs.map g :=
  fun c rest hc hrest =>
    itemsBelow_leaves hrow (fun x hx us hw c _ => hitem x hx us hw c) hstart hclose c
      (Nat.lt_succ_of_le (Nat.le_of_eq c.left_eq.symm)) rest hc hrest

/-- Items in a row, then the closing token. -/
theorem reads_itemsIn {xs : List β} {ls : List Lexeme} (hrow : Row W xs ls) {close : Punctuator}
    {item : Reader α} (hitem : ∀ x ∈ xs, ∀ us, W x us → item.Reads us F fun a => f a = g x)
    (hstart : ∀ x ∈ xs, ∀ us, W x us → StartsAs (fun k => k ≠ .punct close ∧ F k) us)
    (hclose : F (.punct close)) :
    (itemsIn close item).Reads (ls ++ [mark close]) Anything fun as => as.map f = xs.map g := by
  refine .bind (reads_itemsUntil hrow hitem hstart hclose) (fun as has => ?_) fun _ _ => rfl
  exact .last (reads_expect rfl) fun _ _ => .pure has

theorem reads_optionalItems {xs : List β} {ls : List Lexeme} {opening close : Punctuator}
    (hrow : Bracketed opening close W xs ls) {item : Reader α}
    (hitem : ∀ x ∈ xs, ∀ us, W x us → item.Reads us F fun a => f a = g x)
    (hstart : ∀ x ∈ xs, ∀ us, W x us → StartsAs (fun k => k ≠ .punct close ∧ F k) us)
    (hclose : F (.punct close)) :
    (optionalItems opening close item).Reads ls (Avoids [.punct opening])
      fun as => as.map f = xs.map g := by
  cases hrow with
  | absent =>
    refine .last (reads_eat_avoided _) fun opened ho => ?_
    subst ho
    exact .pure rfl
  | present hxs =>
    refine .token (reads_eat rfl) fun opened ho => ?_
    subst ho
    exact (reads_itemsIn hxs hitem hstart hclose).anywhere

/-- An item behind each mark. Behind an item stands another mark, or what may stand behind the last
one. -/
theorem reads_eachAfter {p : Punctuator} {xs : List β} {ls : List Lexeme}
    (hrow : Row W xs ls) {item : Nat → Reader α}
    (hitem : ∀ x ∈ xs, ∀ us, W x us →
      ∃ vs, us = mark p :: vs ∧ ∀ n, (item n).Reads vs F fun a => f a = g x)
    (hmark : F (.punct p)) :
    Reads (eachAfter p item) ls (fun k => F k ∧ k ≠ .punct p) fun as => as.map f = xs.map g := by
  induction hrow with
  | nil =>
    intro c rest hc hrest
    have hk : ¬ c.kind = .punct p := by
      rw [c.kind_eq_nextKind, hc]
      exact hrest.2
    unfold eachAfter
    rw [dif_neg hk]
    exact ⟨rfl, hc, rfl⟩
  | @cons x xs us more hx hxs ih =>
    intro c rest hc hrest
    obtain ⟨vs, rfl, hread⟩ := hitem x (List.mem_cons_self ..) us hx
    rw [List.append_assoc, List.cons_append] at hc
    have hk : c.kind = .punct p := Cursor.kind_of_lexemes hc
    -- Behind an item stands the mark of the next one, or what comes behind the row.
    have hnext : F (nextKind (more ++ rest)) := by
      cases hxs with
      | nil => exact hrest.1
      | @cons y ys ys₁ ys₂ hy hys =>
        obtain ⟨ws, rfl, -⟩ := hitem y (by simp) ys₁ hy
        exact hmark
    have hadvance : c.advance.lexemes = vs ++ (more ++ rest) := Cursor.lexemes_advance_of hc
    have hfirst := hread c.current.span.start c.advance _ hadvance hnext
    have hlater := ih (fun y hy => hitem y (List.mem_cons_of_mem _ hy)) _ rest hfirst.lexemes hrest
    unfold eachAfter
    rw [dif_pos hk]
    refine ⟨?_, hlater.lexemes, hlater.faults.trans hfirst.faults⟩
    change f _ :: List.map f _ = g x :: xs.map g
    rw [← hfirst.answer, ← hlater.answer]
    rfl

/-- A word, and more words with a mark in front of each. -/
theorem reads_words {p : Punctuator} {text : β → String} {x : β} {xs : List β} {more : List Lexeme}
    (hxs : Row (fun y ls => ls = [mark p, word (text y)]) xs more) {item : Reader α}
    (hitem : ∀ x, item.Reads [word (text x)] Anything fun a => f a = g x) :
    Reads (do
      let first ← item
      let others ← (eachAfter p fun _ => item : Reader (List α))
      return first :: others) (word (text x) :: more) (Avoids [.punct p])
      fun as => as.map f = (x :: xs).map g := by
  have hothers : Reads (eachAfter p fun _ => item) more (Avoids [.punct p])
      fun as => as.map f = xs.map g := by
    refine (reads_eachAfter (F := Anything) hxs (fun y _ us hus => ?_) trivial).before ?_
    · exact ⟨_, hus, fun _ => hitem y⟩
    · exact fun k hk => ⟨trivial, by simpa [Avoids] using hk⟩
  refine .token (hitem x) fun a ha => .last hothers fun as has => .pure ?_
  rw [List.map_cons, List.map_cons, ha, has]

/-- Words with a mark between each two, and perhaps one in front. -/
theorem reads_separated {p : Punctuator} {text : β → String} {xs : List β} {ls : List Lexeme}
    (h : Separated p text xs ls) {item : Reader α}
    (hitem : ∀ x, item.Reads [word (text x)] Anything fun a => f a = g x) :
    (separated p item).Reads ls (Avoids [.punct p]) fun as => as.map f = xs.map g := by
  cases h with
  | plain hxs =>
    -- Where the mark might stand there is a word.
    exact .bind (reads_eat_avoided _) (fun _ _ => reads_words hxs hitem) fun _ _ =>
      avoids_word _ (by simp [TokenKind.isName])
  | behindMark hxs => exact .token (reads_eat rfl) fun _ _ => reads_words hxs hitem

end Loops

end Reader

end ResolverContracts
