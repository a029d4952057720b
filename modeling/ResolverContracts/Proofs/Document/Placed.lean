import ResolverContracts.Proofs.Document.Advances
import ResolverContracts.Proofs.Document.Extents
/-!
# What a reader lays down

A reader goes over a stretch of tokens and answers with nodes of a document. `c.Lays text d es` says
that from `c` to `d` the nodes `es` were laid down: they are sound, and if no fault was added on the
way they stand in a row between the token at `c` and the last token taken at `d`. Stretches join, and
so do the rows (`Cursor.Lays.trans`).

A node closes around the row of its parts (`Cursor.Fills.node`). It takes its start from a cursor in
front of the parts and its end from the last token taken, so it needs to know that a token was taken
since; that is what `Cursor.Fills` adds. In front of the node may stand its description
(`Cursor.Opens`). The rules for `Reader.Completes` are these facts put in the order in which a reader
of a node goes: `lay` a part, `skip` what is none, and take the span at last.
-/

set_option autoImplicit false

namespace ResolverContracts

/-! ## Cursors in a text -/

namespace Cursor

/-- The tokens ahead and the end of the text. -/
def upcoming (c : Cursor) : List Token := c.ahead ++ [.endAt c.stop]

theorem current_mem_upcoming (c : Cursor) : c.current ∈ c.upcoming := by
  by_cases hc : c.ahead = []
  · rw [current_of_nil hc]
    exact List.mem_append_right _ List.mem_cons_self
  · rw [upcoming, ahead_eq_cons hc]
    exact List.mem_cons_self

theorem advance_upcoming_suffix (c : Cursor) : c.advance.upcoming <:+ c.upcoming := by
  obtain ⟨front, hfront⟩ := c.advance_ahead_suffix
  exact ⟨front, by rw [upcoming, upcoming, ← hfront, List.append_assoc]; rfl⟩

/-- A cursor in a text: the tokens ahead of it are some of the text, in order and behind what was
taken, and the faults are at places that it has passed. -/
structure Placed (text : List Char) (c : Cursor) : Prop where
  ordered : c.upcoming.Pairwise fun t later => t.span.stop ≤ later.span.start
  nonempty : ∀ t ∈ c.ahead, t.span.start < t.span.stop
  slices : ∀ t ∈ c.upcoming, t.span.slice text = t.text.toList
  stop_le : c.stop ≤ byteLength text + 1
  lastStop_le : c.lastStop ≤ c.current.span.start
  faults_fit : ∀ f ∈ c.faults, f.span.Fits text ∧ f.span.start ≤ c.current.span.start
  faults_ordered : c.faults.Pairwise fun f later => f.span.start ≤ later.span.start

namespace Placed

variable {text : List Char} {c : Cursor}

theorem current_nonempty (h : c.Placed text) (hc : c.ahead ≠ []) :
    c.current.span.start < c.current.span.stop := by
  refine h.nonempty c.current ?_
  rw [ahead_eq_cons hc]
  exact List.mem_cons_self

/-- The end of the text is empty, and runs forward too. -/
theorem current_forward (h : c.Placed text) : c.current.span.start ≤ c.current.span.stop := by
  by_cases hc : c.ahead = []
  · rw [current_of_nil hc]
    exact Nat.le_refl _
  · exact Nat.le_of_lt (h.current_nonempty hc)

/-- The next token does not start before the current one stops. At the end of the text that is the
end itself. -/
theorem current_stop_le (h : c.Placed text) : c.current.span.stop ≤ c.advance.current.span.start := by
  by_cases hc : c.ahead = []
  · have hnext : c.advance.ahead = [] := List.suffix_nil.mp (hc ▸ c.advance_ahead_suffix)
    rw [current_of_nil hc, current_of_nil hnext]
    exact Nat.le_refl _
  · have hordered := h.ordered
    rw [upcoming, ahead_eq_cons hc, List.cons_append] at hordered
    exact (List.pairwise_cons.mp hordered).1 _ c.advance.current_mem_upcoming

theorem current_fits (h : c.Placed text) : c.current.span.Fits text := by
  refine ⟨h.current_forward, ?_⟩
  by_cases hc : c.ahead = []
  · rw [current_of_nil hc]
    exact h.stop_le
  · have hordered := h.ordered
    rw [upcoming, ahead_eq_cons hc, List.cons_append] at hordered
    have hstop : c.current.span.stop ≤ c.stop :=
      (List.pairwise_cons.mp hordered).1 (.endAt c.stop) (List.mem_append_right _ List.mem_cons_self)
    exact Nat.le_trans hstop h.stop_le

/-- What was passed lies in front of a place behind the text. -/
theorem lastStop_le_length (h : c.Placed text) : c.lastStop ≤ byteLength text + 1 := by
  obtain ⟨hforward, hstop⟩ := h.current_fits
  exact Nat.le_trans h.lastStop_le (Nat.le_trans hforward hstop)

theorem start_le_advance (h : c.Placed text) :
    c.current.span.start ≤ c.advance.current.span.start :=
  Nat.le_trans h.current_forward h.current_stop_le

theorem advance (h : c.Placed text) : c.advance.Placed text where
  ordered := h.ordered.sublist c.advance_upcoming_suffix.sublist
  nonempty := fun t ht => h.nonempty t (c.advance_ahead_suffix.subset ht)
  slices := fun t ht => h.slices t (c.advance_upcoming_suffix.subset ht)
  stop_le := h.stop_le
  lastStop_le := h.current_stop_le
  faults_fit := by
    intro f hf
    obtain ⟨hfits, hstart⟩ := h.faults_fit f hf
    exact ⟨hfits, Nat.le_trans hstart h.start_le_advance⟩
  faults_ordered := h.faults_ordered

/-- A fault is at the current token, and all others are in front of that. -/
theorem report (h : c.Placed text) (cause : Cause) : (c.report cause).Placed text where
  ordered := h.ordered
  nonempty := h.nonempty
  slices := h.slices
  stop_le := h.stop_le
  lastStop_le := h.lastStop_le
  faults_fit := List.forall_mem_append.mpr
    ⟨h.faults_fit, List.forall_mem_singleton.mpr ⟨h.current_fits, Nat.le_refl _⟩⟩
  faults_ordered := by
    refine List.pairwise_append.mpr ⟨h.faults_ordered, List.pairwise_singleton .., ?_⟩
    intro f hf
    exact List.forall_mem_singleton.mpr (h.faults_fit f hf).2

end Placed

/-! ## Stretches -/

/-- From one place of a text to a later one. -/
structure RunsTo (text : List Char) (c d : Cursor) : Prop where
  origin : c.Placed text
  placed : d.Placed text
  start_le : c.current.span.start ≤ d.current.span.start
  lastStop_le : c.lastStop ≤ d.lastStop
  faults : c.faults <+: d.faults

namespace RunsTo

variable {text : List Char} {c d e : Cursor}

theorem refl (h : c.Placed text) : c.RunsTo text c :=
  ⟨h, h, Nat.le_refl _, Nat.le_refl _, List.prefix_refl _⟩

theorem trans (h : c.RunsTo text d) (hlater : d.RunsTo text e) : c.RunsTo text e :=
  ⟨h.origin, hlater.placed, Nat.le_trans h.start_le hlater.start_le,
    Nat.le_trans h.lastStop_le hlater.lastStop_le, h.faults.trans hlater.faults⟩

theorem advance (h : c.RunsTo text d) : c.RunsTo text d.advance where
  origin := h.origin
  placed := h.placed.advance
  start_le := Nat.le_trans h.start_le h.placed.start_le_advance
  lastStop_le := by
    calc c.lastStop ≤ d.lastStop := h.lastStop_le
      _ ≤ d.current.span.start := h.placed.lastStop_le
      _ ≤ d.current.span.stop := h.placed.current_forward
  faults := h.faults

theorem report (h : c.RunsTo text d) (cause : Cause) : c.RunsTo text (d.report cause) :=
  ⟨h.origin, h.placed.report cause, h.start_le, h.lastStop_le,
    h.faults.trans (List.prefix_append ..)⟩

/-- No fault was added on the whole way, so none was added on either part of it. -/
theorem faults_eq (h : c.RunsTo text d) (hlater : d.RunsTo text e) (heq : e.faults = c.faults) :
    d.faults = c.faults ∧ e.faults = d.faults := by
  have hle : d.faults.length ≤ c.faults.length := by
    rw [← heq]
    exact hlater.faults.length_le
  have hfirst : c.faults = d.faults := h.faults.eq_of_length_le hle
  exact ⟨hfirst.symm, heq.trans hfirst⟩

end RunsTo

/-- Taking tokens and reporting faults leads to later places. -/
theorem Reaches.runsTo {text : List Char} {n : Nat} {c d : Cursor} (h : c.Reaches n d)
    (hc : c.Placed text) : c.RunsTo text d := by
  induction h with
  | here => exact .refl hc
  | advance _ _ ih => exact ih.advance
  | advanceEnd _ _ ih => exact ih.advance
  | report _ cause ih => exact ih.report cause

/-- All that a reader does is to go on and to report, so it runs forward. -/
theorem Uses.runsTo {text : List Char} {use : EndUse} {c d : Cursor} (h : c.Uses d use)
    (hc : c.Placed text) : c.RunsTo text d := by
  obtain ⟨n, -, hreach⟩ := h
  exact hreach.runsTo hc

/-! ## Rows -/

/-- The nodes laid down from one place to another. -/
structure Lays (text : List Char) (c d : Cursor) (es : List Extent) : Prop extends
    c.RunsTo text d where
  sound : ∀ e ∈ es, e.Sound text
  row : d.faults = c.faults → Extent.InRow es c.current.span.start d.lastStop

/-- The parts of a node that starts at the first place. A token was taken since. -/
structure Fills (text : List Char) (c d : Cursor) (es : List Extent) : Prop extends
    Lays text c d es where
  begun : d.faults = c.faults → c.current.span.start ≤ d.lastStop

/-- The way to the start of a node, past its description if it has one. -/
structure Opens (text : List Char) (c : Cursor) (front : Option Span) (d : Cursor) : Prop extends
    c.RunsTo text d where
  fits : ∀ s ∈ front, s.Fits text
  inFront : ∀ s ∈ front, c.current.span.start ≤ s.start ∧ s.stop ≤ d.current.span.start

section Rows

variable {text : List Char} {b c d e : Cursor} {es fs : List Extent}

theorem RunsTo.lays (h : c.RunsTo text d) : c.Lays text d [] :=
  ⟨h, List.forall_mem_nil _, fun _ => .nil⟩

/-- Two stretches lay down two rows, one behind the other. -/
theorem Lays.trans (h : c.Lays text d es) (hlater : d.Lays text e fs) : c.Lays text e (es ++ fs) where
  toRunsTo := h.toRunsTo.trans hlater.toRunsTo
  sound := List.forall_mem_append.mpr ⟨h.sound, hlater.sound⟩
  row := by
    intro heq
    obtain ⟨hfirst, hsecond⟩ := h.toRunsTo.faults_eq hlater.toRunsTo heq
    -- The first row ends with the last token taken at `d`, and that is not behind the token at `d`.
    exact (h.row hfirst).append (hlater.row hsecond) h.placed.lastStop_le h.start_le hlater.lastStop_le

/-- What is passed without a node belongs to the gap behind the last one. -/
theorem Lays.skip (h : c.Lays text d es) (hlater : d.RunsTo text e) : c.Lays text e es := by
  have hall := h.trans hlater.lays
  rwa [List.append_nil] at hall

theorem RunsTo.trans_lays (h : c.RunsTo text d) (hlater : d.Lays text e es) : c.Lays text e es :=
  h.lays.trans hlater

/-- Where a part was laid down, a token was taken. -/
theorem Lays.fills {first : Extent} (h : c.Lays text d (first :: es)) :
    c.Fills text d (first :: es) :=
  ⟨h, fun heq => (h.row heq).start_le_stop⟩

theorem Fills.lay (h : c.Fills text d es) (hlater : d.Lays text e fs) : c.Fills text e (es ++ fs) where
  toLays := h.toLays.trans hlater
  begun := by
    intro heq
    obtain ⟨hfirst, -⟩ := h.toRunsTo.faults_eq hlater.toRunsTo heq
    exact Nat.le_trans (h.begun hfirst) hlater.lastStop_le

theorem Fills.skip (h : c.Fills text d es) (hlater : d.RunsTo text e) : c.Fills text e es := by
  have hall := h.lay hlater.lays
  rwa [List.append_nil] at hall

/-- A node that starts with a token of its own. -/
theorem RunsTo.fills (h : c.RunsTo text d) : c.Fills text d.advance [] where
  toLays := h.advance.lays
  begun := fun _ => Nat.le_trans h.start_le h.placed.current_forward

theorem RunsTo.opens (h : c.RunsTo text d) : c.Opens text none d :=
  ⟨h, nofun, nofun⟩

/-- The span from a node's start on covers the parts, whatever was reported. -/
theorem Lays.fits_spanFrom (h : c.Lays text d es) : (d.spanFrom c.current.span.start).Fits text := by
  refine ⟨Nat.le_max_right .., Nat.max_le.mpr ⟨h.placed.lastStop_le_length, ?_⟩⟩
  obtain ⟨hforward, hstop⟩ := h.origin.current_fits
  exact Nat.le_trans hforward hstop

/-- **A node closes around its parts.** -/
theorem Fills.node {front : Option Span} (hopen : b.Opens text front c) (h : c.Fills text d es) :
    b.Lays text d [.node front (d.spanFrom c.current.span.start) es] where
  toRunsTo := hopen.toRunsTo.trans h.toRunsTo
  sound := List.forall_mem_singleton.mpr (.node hopen.fits h.fits_spanFrom h.sound)
  row := by
    intro heq
    obtain ⟨-, hnone⟩ := hopen.toRunsTo.faults_eq h.toRunsTo heq
    -- A token was taken, so the span ends where that token does.
    have hspan : d.spanFrom c.current.span.start = ⟨c.current.span.start, d.lastStop⟩ := by
      rw [spanFrom, Nat.max_eq_left (h.begun hnone)]
    have hrow := h.row hnone
    have hfront : ∀ s ∈ front, s.start ≤ s.stop ∧ s.stop ≤ c.current.span.start :=
      fun s hs => ⟨(hopen.fits s hs).1, (hopen.inFront s hs).2⟩
    rw [hspan]
    refine .singleton (.node hfront (h.begun hnone) hrow.within hrow.ordered hrow.nested) ?_
      (Nat.le_refl _)
    cases front with
    | none => exact hopen.start_le
    | some s => exact (hopen.inFront s rfl).1

end Rows

end Cursor

/-! ## Readers -/

/-- From the cursor `b` to where the step leads, the nodes of the answer are laid down. -/
def Step.Lays {α : Type} {c : Cursor} (text : List Char) (b : Cursor) (s : Step c α)
    (extents : α → List Extent) : Prop :=
  b.Lays text s.1.2 (extents s.1.1)

namespace Reader

variable {α β : Type} {text : List Char} {r : Reader α} {next : α → Reader β}
variable {use : EndUse} {b c : Cursor} {front : Option Span} {es : List Extent}
variable {extents : α → List Extent} {all : β → List Extent}

/-- The reader lays down the nodes it answers with. -/
def Lays (text : List Char) (r : Reader α) (extents : α → List Extent) : Prop :=
  ∀ c : Cursor, c.Placed text → (r c).Lays text c extents

/-- Behind the parts `es` of a node that starts at `c`, the reader completes the node, or whatever it
answers with. The way to it started at `b`. -/
def Completes (text : List Char) (b c : Cursor) (es : List Extent) (r : Reader α)
    (all : α → List Extent) : Prop :=
  ∀ d, c.Fills text d es → (r d).Lays text b all

/-! ## Rules -/

/-- An answer that is no node. -/
theorem Lays.pure {a : α} (h : extents a = []) : Lays text (Pure.pure a) extents := by
  intro c hc
  change c.Lays text c (extents a)
  rw [h]
  exact (Cursor.RunsTo.refl hc).lays

/-- What is read behind the nodes adds none. -/
theorem Lays.skip {s : Reader β} (h : r.Lays text extents) (hs : s.Uses use) :
    (do let a ← r; let _ ← s; return a).Lays text extents := by
  intro c hc
  have hfirst := h c hc
  exact Cursor.Lays.skip hfirst ((hs _).runsTo hfirst.placed)

namespace Completes

/-- The step lays down the parts, and the reader behind it completes the node. -/
theorem andThen {d : Cursor} {s : Step d α} (hs : c.Fills text s.1.2 es)
    (hnext : Completes text b c es (next s.1.1) all) : (s.andThen next).Lays text b all :=
  hnext _ hs

theorem lay (hr : r.Lays text extents)
    (hnext : ∀ a, Completes text b c (es ++ extents a) (next a) all) :
    Completes text b c es (r >>= next) all := by
  intro d hd
  exact hnext _ _ (hd.lay (hr d hd.placed))

theorem skip (hr : r.Uses use) (hnext : ∀ a, Completes text b c es (next a) all) :
    Completes text b c es (r >>= next) all := by
  intro d hd
  exact hnext _ _ (hd.skip ((hr d).runsTo hd.placed))

theorem ite {p : Prop} [Decidable p] {r s : Reader β} (hr : Completes text b c es r all)
    (hs : Completes text b c es s all) : Completes text b c es (if p then r else s) all := by
  by_cases h : p
  · rwa [if_pos h]
  · rwa [if_neg h]

/-- The row itself is the answer. -/
theorem row {a : β} (h : all a = es) : Completes text c c es (pure a) all := by
  intro d hd
  change c.Lays text d (all a)
  rw [h]
  exact hd.toLays

/-- The span is the last thing that a node needs. -/
theorem spanned {f : Span → β} (hopen : b.Opens text front c)
    (h : ∀ span, all (f span) = [.node front span es]) :
    Completes text b c es (do return f (← spanFrom c.current.span.start)) all := by
  intro d hd
  change b.Lays text d (all (f (d.spanFrom c.current.span.start)))
  rw [h]
  exact hd.node hopen

/-- The row becomes one node, and the reader goes on behind that. -/
theorem wrapped {next : Span → Reader β} (hc : c.Placed text)
    (hnext : ∀ span, Completes text c c [.node none span es] (next span) all) :
    Completes text c c es (spanFrom c.current.span.start >>= next) all := by
  intro d hd
  exact hnext _ _ (hd.node (Cursor.RunsTo.refl hc).opens).fills

end Completes

/-! ## Loops -/

/-- A token that is skipped stands behind the item, and outside of it. -/
theorem lays_pastItem {before after : Cursor} (h : before.Lays text after es) :
    before.Lays text (pastItem before after) es := by
  unfold pastItem
  split
  · exact h
  · exact h.skip (Cursor.RunsTo.refl h.placed).advance

/-- The items of a loop are laid down one behind the other. -/
theorem lays_itemsBelow {bound : Nat} {close : TokenKind}
    {item : (c : Cursor) → c.ahead.length < bound → Step c α}
    (hitem : ∀ c h, c.Placed text → (item c h).Lays text c extents) (c : Cursor)
    (h : c.ahead.length < bound) (hc : c.Placed text) :
    (itemsBelow bound close item c h).Lays text c (·.flatMap extents) := by
  fun_induction itemsBelow bound close item c h with
  | case1 c h hend => exact (Cursor.RunsTo.refl hc).lays
  | case2 c h hend r next hb hlt rest ih =>
    have hfirst : c.Lays text next (extents r.1.1) := lays_pastItem (hitem c h hc)
    exact hfirst.trans (ih hfirst.placed)

theorem lays_itemsUntil {close : TokenKind} (h : r.Lays text extents) :
    (itemsUntil close r).Lays text (·.flatMap extents) :=
  fun c hc => lays_itemsBelow (fun c _ => h c) c _ hc

/-- What stands behind a word or a mark, if that is there. -/
theorem lays_behind {kind : TokenKind} (hkind : (eat kind).Uses .never) {s : Reader β} {none : β}
    (hs : s.Lays text all) (hnone : all none = []) :
    (do if ← eat kind then s else return none).Lays text all := by
  intro c hc
  have hfound := (hkind c).runsTo hc
  change Step.Lays text c ((if (eat kind c).1.1 then s else pure none) (eat kind c).1.2) all
  cases (eat kind c).1.1 with
  | true => exact hfound.trans_lays (hs _ hfound.placed)
  | false => exact hfound.trans_lays (Lays.pure hnone _ hfound.placed)

theorem lays_optionalItems {opening closing : Punctuator} (h : r.Lays text extents) :
    (optionalItems opening closing r).Lays text (·.flatMap extents) :=
  lays_behind (uses_eat_mark opening) ((lays_itemsUntil h).skip (uses_expect_mark closing)) rfl

/-- An item behind a mark may start at the mark. -/
theorem lays_eachAfter {mark : Punctuator} {item : Nat → Reader α}
    (hitem : ∀ c, c.Placed text → (item c.current.span.start c.advance).Lays text c extents) :
    Lays text (eachAfter mark item) (·.flatMap extents) := by
  intro c hc
  fun_induction eachAfter mark item c with
  | case1 c hm r hlt rest ih =>
    have hfirst : c.Lays text r.1.2 (extents r.1.1) := hitem c hc
    exact hfirst.trans (ih hfirst.placed)
  | case2 c hm => exact (Cursor.RunsTo.refl hc).lays

theorem lays_separated {mark : Punctuator} (h : r.Lays text extents) :
    (separated mark r).Lays text (·.flatMap extents) := by
  intro c hc
  have hmark := ((uses_eat_mark mark) c).runsTo hc
  have hfirst := h _ hmark.placed
  have hothers : Lays text (eachAfter mark fun _ => r) (·.flatMap extents) :=
    lays_eachAfter fun c hc =>
      (Cursor.RunsTo.refl hc).advance.trans_lays (h _ hc.advance)
  exact hmark.trans_lays (hfirst.trans (hothers _ hfirst.placed))

/-- One node for each item. -/
theorem Lays.each {r : Reader (List α)} {extent : α → Extent}
    (h : r.Lays text (·.flatMap fun a => [extent a])) : r.Lays text (·.map extent) := by
  intro c hc
  change c.Lays text (r c).1.2 ((r c).1.1.map extent)
  rw [List.map_eq_flatMap]
  exact h c hc

/-- One node for each item that is there. -/
theorem Lays.eachSome {r : Reader (List (Option α))} {extent : α → Extent}
    (h : r.Lays text (·.flatMap fun a => a.toList.map extent)) :
    r.Lays text fun items => (items.filterMap id).map extent := by
  intro c hc
  change c.Lays text (r c).1.2 (((r c).1.1.filterMap id).map extent)
  have heq (items : List (Option α)) : (items.filterMap id).map extent =
      items.flatMap fun a => a.toList.map extent := by
    induction items with
    | nil => rfl
    | cons a items ih =>
      rw [List.flatMap_cons, ← ih]
      cases a with
      | none => rfl
      | some a => rfl
  rw [heq]
  exact h c hc

end Reader

end ResolverContracts
