import ResolverContracts.Proofs.Document.EveryToken
import ResolverContracts.Proofs.Document.ReadersPlaced
import ResolverContracts.Proofs.Document.Tiling
import ResolverContracts.Proofs.Text.Handles
/-!
# Spans are sound

What is read from a text has sound spans, whatever the text (`Document.wellPlaced_parse`): in the
document and in the labels of the diagnostics. A text without diagnostics has a document whose nodes
are nested, and follow each other.

A document can be stored with numbers for its names. The number that a name gets when it is read leads
back to the part of the text that the name covers, since a store only ever grows
(`Interner.get_intern`).
-/

set_option autoImplicit false

namespace ResolverContracts

/-! ## Labels -/

/-- A fault has one label, at the token it was found at. -/
theorem Fault.labels_toDiagnostic (f : Fault) :
    ∃ text, f.toDiagnostic.labels = [⟨f.span, text⟩] := by
  unfold toDiagnostic
  repeat' split
  all_goals exact ⟨_, rfl⟩

/-- The labels of diagnostics are where the faults are, one after the other. -/
theorem map_span_labels (faults : List Fault) :
    ((faults.map (·.toDiagnostic)).flatMap (·.labels)).map (·.span) = faults.map (·.span) := by
  induction faults with
  | nil => rfl
  | cons f faults ih =>
    obtain ⟨remark, hlabel⟩ := f.labels_toDiagnostic
    rw [List.map_cons, List.flatMap_cons, hlabel, List.map_append, ih]
    rfl

/-! ## Parse results -/

/-- What can be relied on in the spans of a parse result. -/
structure Parsed.WellPlaced (p : Parsed) (text : List Char) : Prop where
  sound : p.document.extent.Sound text
  labels : ∀ d ∈ p.diagnostics.items, ∃ l, d.labels = [l] ∧ l.span.Fits text
  ordered : (p.diagnostics.items.flatMap (·.labels)).Pairwise fun l later =>
    l.span.start ≤ later.span.start
  /-- The number that a name got when it was read leads to the part of the text that it covers. -/
  names : ∀ before n behind, p.document.names = before ++ n :: behind →
    (p.document.interner.get ((Interner.ofNames (before.map (·.text))).intern n.text).1).toList =
      n.span.slice text
  nested : p.diagnostics = .empty → p.document.extent.Nested

/-- In front of a text that is tiled, all its tokens are ahead. -/
theorem Lexed.Tiles.placed_start {l : Lexed} {text : List Char} (h : l.Tiles text)
    (hslices : ∀ t ∈ l.all, t.span.slice text = t.text.toList) :
    (Cursor.start l.tokens l.stop).Placed text where
  ordered := h.ordered
  nonempty := h.nonempty
  slices := hslices
  stop_le := by
    obtain ⟨hstop, -⟩ | ⟨front, before, opened, -, -, -, rfl⟩ := h.ending
    · exact Nat.le_trans (Nat.le_of_eq hstop) (Nat.le_succ _)
    · exact Nat.le_refl _
  lastStop_le := Nat.zero_le _
  faults_fit := List.forall_mem_nil _
  faults_ordered := .nil

/-- A document covers what was laid down from the first token to the end of the text. -/
theorem Parsed.WellPlaced.of_lays {p : Parsed} {text : List Char} {start finish : Cursor}
    (h : start.Lays text finish (p.document.definitions.map (·.extent)))
    (hspan : p.document.span = ⟨start.current.span.start, finish.current.span.stop⟩)
    (hstart : start.faults = []) (hfinish : p.faults = finish.faults) : p.WellPlaced text := by
  have hforward : start.current.span.start ≤ finish.current.span.stop :=
    Nat.le_trans h.start_le h.placed.current_forward
  -- What is laid down is sound in any case, so of the document only its own span is left.
  have hsound : p.document.extent.Sound text := by
    refine .node nofun ?_ h.sound
    rw [hspan]
    exact ⟨hforward, h.placed.current_fits.2⟩
  refine ⟨hsound, ?_, ?_, ?_, ?_⟩
  · refine List.forall_mem_map.mpr fun f hf => ?_
    obtain ⟨remark, hlabel⟩ := f.labels_toDiagnostic
    exact ⟨⟨f.span, remark⟩, hlabel, (h.placed.faults_fit f (hfinish ▸ hf)).1⟩
  · have hspans : (finish.faults.map (·.span)).Pairwise fun s later => s.start ≤ later.start :=
      List.pairwise_map.mpr h.placed.faults_ordered
    rw [← hfinish, ← map_span_labels, List.pairwise_map] at hspans
    exact hspans
  · -- The store gives the name back, and the name is the part of the text that its span covers.
    intro before n behind hnames
    have hn : n ∈ p.document.extent.names := by
      rw [Document.names_extent, hnames]
      exact List.mem_append_right _ List.mem_cons_self
    rw [Document.interner, hnames, List.map_append, List.map_cons, Interner.get_intern]
    exact (hsound.slice_name n hn).symm
  · intro hempty
    rw [p.diagnostics_eq_empty_iff, hfinish] at hempty
    have hrow := h.row (hempty.trans hstart.symm)
    -- The last definition ends with the last token, and the document with the text.
    have hstop : finish.lastStop ≤ finish.current.span.stop :=
      Nat.le_trans h.placed.lastStop_le h.placed.current_forward
    have hall := hrow.mono (Nat.le_refl _) hstop
    refine .node nofun ?_ ?_ hall.ordered hall.nested
    · rwa [hspan]
    · rw [hspan]
      exact hall.within

/-- **Spans are sound.** Whatever the text, every span of its document and of its diagnostics runs
forward and stops no more than one byte behind the text; every name is the part of the text that its
span covers, also if it is stored by number; and the diagnostics are in the order of their places. If
there are none, the nodes of the document are nested, their parts follow each other, and no name is
empty. -/
theorem Document.wellPlaced_parse (text : String) :
    (Document.parse text).WellPlaced text.toList := by
  have hstart := (tiling_lexemesFrom 0 text.toList).tiles.placed_start (Lexed.slice_ofText text)
  exact .of_lays ((Reader.lays_itemsUntil lays_readDefinition).eachSome _ hstart) rfl rfl rfl

end ResolverContracts
