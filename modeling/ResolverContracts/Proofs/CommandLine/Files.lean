import ResolverContracts.CommandLine.Run
import ResolverContracts.Proofs.Contract.Successes
/-!
# Files before and after a write

What a write to a tree of files leaves as it was. A path that led to a place leads to it afterwards,
since a write removes no directory (`FileTree.locate_put_of_ok`). The file written has its text, every
other file keeps its own, and a file that was missing is still missing unless it is the one written.

The last point needs care: a write could make a directory where nothing was, namely above the file.
It does not, because a path is followed through directories only (`FileTree.Rooted`).
-/

set_option autoImplicit false

namespace ResolverContracts

/-- Giving a key the value that it has changes nothing. -/
theorem Entries.put_of_get? {α β : Type} [BEq α] [LawfulBEq α] {key : α} {value : β}
    {entries : List (α × β)} (h : get? key entries = some value) :
    put key value entries = entries := by
  induction entries with
  | nil => simp [get?] at h
  | cons e es ih =>
    rw [get?_cons] at h
    unfold put
    split
    · next he =>
      rw [if_pos he, Option.some.injEq] at h
      obtain ⟨k, v⟩ := e
      obtain rfl : k = key := by simpa using he
      obtain rfl : v = value := h
      rfl
    · next he =>
      rw [if_neg he] at h
      rw [ih h]

namespace FileTree

variable {t : FileTree} {l p q : Place} {text path name : String}

/-! ## Directories -/

/-- A write adds the directories above the file to those there are. -/
theorem isDirectory_put (t : FileTree) (l p : Place) (text : String) :
    (t.put l text).isDirectory p = (t.isDirectory p || (p.isPrefixOf l && p.length < l.length)) := by
  have hkeys (u : FileTree) : u.isDirectory p =
      (u.entries.map (·.1)).any fun k => p.isPrefixOf k && p.length < k.length := by
    rw [isDirectory, List.any_map]
    rfl
  rw [hkeys, hkeys, put, Entries.map_fst_put]
  split
  · next hmem =>
    have hmem : l ∈ t.entries.map (·.1) := by simpa using hmem
    by_cases habove : (p.isPrefixOf l && decide (p.length < l.length)) = true
    · rw [habove, Bool.or_true, List.any_eq_true]
      exact ⟨l, hmem, habove⟩
    · rw [Bool.not_eq_true] at habove
      rw [habove, Bool.or_false]
  · rw [List.any_append, List.any_cons, List.any_nil, Bool.or_false]

theorem isDirectory_put_of_isDirectory (h : t.isDirectory p = true) :
    (t.put l text).isDirectory p = true := by
  rw [isDirectory_put, h, Bool.true_or]

/-- A write to a file does not make a directory of it. -/
theorem isDirectory_put_self (t : FileTree) (l : Place) (text : String) :
    (t.put l text).isDirectory l = t.isDirectory l := by
  simp [isDirectory_put]

/-! ## Paths -/

theorem enter_put_of_ok (h : t.enter p name = .ok q) : (t.put l text).enter p name = .ok q := by
  unfold enter at h ⊢
  split
  · next hhere => rwa [if_pos hhere] at h
  · next hhere =>
    rw [if_neg hhere] at h
    split
    · next hup => rwa [if_pos hup] at h
    · next hup =>
      rw [if_neg hup] at h
      simp only at h ⊢
      split at h
      · next hdir => rwa [if_pos (isDirectory_put_of_isDirectory hdir)]
      · exact nomatch h

theorem follow_put_of_ok {names : List String} {r : Option Place} (h : t.follow p names = .ok r) :
    (t.put l text).follow p names = .ok r := by
  fun_induction follow t p names with
  | case1 => exact h
  | case2 => exact h
  | case3 p name names hnames ih =>
    obtain ⟨q, hq, hrest⟩ := bind_eq_ok_iff.mp h
    rw [follow, enter_put_of_ok hq]
    · exact ih q hrest
    · exact hnames

/-- A path that led to a place still does. -/
theorem locate_put_of_ok {r : Option Place} (h : t.locate path = .ok r) :
    (t.put l text).locate path = .ok r := by
  unfold locate at h ⊢
  split
  · next hempty => rwa [if_pos hempty] at h
  · next hempty =>
    rw [if_neg hempty] at h
    exact follow_put_of_ok h

/-! ## Where paths lead -/

/-- A place reached from directory to directory: if its first name is that of something below the
working directory, that is a directory. -/
def Rooted (t : FileTree) (l : Place) : Prop :=
  ∀ name ∈ l.head?, name ∉ ["..", "/"] → t.isDirectory [name] = true

theorem rooted_here (t : FileTree) : t.Rooted .here := nofun

theorem rooted_root (t : FileTree) : t.Rooted .root := by
  intro name hname hne
  obtain rfl : name = "/" := by simpa [Place.root, eq_comm] using hname
  exact absurd (by simp) hne

theorem Rooted.parent (h : t.Rooted l) : t.Rooted l.parent := by
  unfold Place.parent
  split
  · exact rooted_root t
  · split
    · next hup =>
      intro name hname hne
      have : name = ".." := by
        cases l with
        | nil => simpa [eq_comm] using hname
        | cons n ns =>
          obtain rfl : n = name := by simpa using hname
          simpa using List.all_eq_true.mp hup n (List.mem_cons_self ..)
      exact absurd (by simp [this]) hne
    · intro name hname
      refine h name ?_
      match l, hname with
      | n :: m :: ns, hname => simpa using hname

theorem Rooted.enter (h : t.Rooted p) (hq : t.enter p name = .ok q) : t.Rooted q := by
  unfold FileTree.enter at hq
  split at hq
  · obtain rfl := Except.ok.inj hq
    exact h
  split at hq
  · obtain rfl := Except.ok.inj hq
    exact h.parent
  simp only at hq
  split at hq
  · next hdir =>
    obtain rfl := Except.ok.inj hq
    intro first hfirst hne
    cases p with
    | nil =>
      obtain rfl : name = first := by simpa using hfirst
      exact hdir
    | cons n ns => exact h first hfirst hne
  · exact nomatch hq

/-- A path leads to a name behind a place that was reached from directory to directory. -/
theorem follow_eq_some {names : List String} (hp : t.Rooted p)
    (h : t.follow p names = .ok (some l)) : ∃ q name, l = q ++ [name] ∧ t.Rooted q := by
  fun_induction follow t p names with
  | case1 => exact nomatch h
  | case2 p name =>
    split at h
    · exact nomatch h
    · obtain rfl := Option.some.inj (Except.ok.inj h)
      exact ⟨p, name, rfl, hp⟩
  | case3 p name names hnames ih =>
    obtain ⟨q, hq, hrest⟩ := bind_eq_ok_iff.mp h
    exact ih q (hp.enter hq) hrest

theorem locate_eq_some (h : t.locate path = .ok (some l)) :
    ∃ q name, l = q ++ [name] ∧ t.Rooted q := by
  unfold locate at h
  split at h
  · exact nomatch h
  · refine follow_eq_some ?_ h
    unfold Path.ofText
    simp only
    split
    · exact rooted_root t
    · exact rooted_here t

/-- A write makes no directory of a name in the working directory. -/
theorem isDirectory_put_of_locate (h : t.locate path = .ok (some l)) (hname : name ∉ ["..", "/"]) :
    (t.put l text).isDirectory [name] = t.isDirectory [name] := by
  obtain ⟨q, last, rfl, hq⟩ := locate_eq_some h
  rw [isDirectory_put]
  cases q with
  | nil => simp
  | cons n ns =>
    by_cases hn : n = name
    · subst hn
      rw [hq n rfl hname, Bool.true_or]
    · have hother : List.isPrefixOf [name] (n :: ns ++ [last]) = false := by
        simp [List.isPrefixOf, Ne.symm hn]
      rw [hother, Bool.false_and, Bool.or_false]

/-! ## Reading and writing -/

/-- A file is read where its path leads. -/
theorem read_eq_ok_iff :
    t.read path = .ok text ↔ ∃ l, t.locate path = .ok (some l) ∧ t.text? l = some text ∧
      (Path.ofText path).endsInSlash = false := by
  unfold read
  constructor
  · intro h
    obtain ⟨found, hl, h⟩ := bind_eq_ok_iff.mp h
    cases found with
    | none => exact nomatch h
    | some l =>
      refine ⟨l, hl, ?_⟩
      simp only at h
      split at h
      · next found hfound =>
        split at h
        · exact nomatch h
        · next hslash =>
          obtain rfl := Except.ok.inj h
          exact ⟨hfound, by simpa using hslash⟩
      · exact nomatch h
  · rintro ⟨l, hl, htext, hslash⟩
    rw [hl]
    simp [bind, Except.bind, htext, hslash]

/-- A write gives a text to the file where its path leads. -/
theorem write_eq_ok_iff {u : FileTree} :
    t.write path text = .ok u ↔ ∃ l, t.locate path = .ok (some l) ∧
      (Path.ofText path).endsInSlash = false ∧ t.isDirectory l = false ∧ u = t.put l text := by
  unfold write
  constructor
  · intro h
    obtain ⟨found, hl, h⟩ := bind_eq_ok_iff.mp h
    cases found with
    | none => exact nomatch h
    | some l =>
      simp only at h
      split at h
      · exact nomatch h
      · next hfile =>
        obtain rfl := Except.ok.inj h
        rw [Bool.or_eq_true, not_or, Bool.not_eq_true, Bool.not_eq_true] at hfile
        exact ⟨l, hl, hfile.1, hfile.2, rfl⟩
  · rintro ⟨l, hl, hslash, hdir, rfl⟩
    rw [hl]
    simp [bind, Except.bind, hslash, hdir]

section Written

variable {u : FileTree}

theorem read_of_write (h : t.write path text = .ok u) : u.read path = .ok text := by
  obtain ⟨l, hl, hslash, -, rfl⟩ := write_eq_ok_iff.mp h
  exact read_eq_ok_iff.mpr ⟨l, locate_put_of_ok hl, t.text?_put_self l text, hslash⟩

/-- Writing the same again is possible and changes nothing. -/
theorem write_of_write (h : t.write path text = .ok u) : u.write path text = .ok u := by
  obtain ⟨l, hl, hslash, hdir, rfl⟩ := write_eq_ok_iff.mp h
  refine write_eq_ok_iff.mpr ⟨l, locate_put_of_ok hl, hslash, ?_, ?_⟩
  · rw [isDirectory_put_self, hdir]
  · rw [put, put, Entries.put_of_get? (Entries.get?_put_self l text t.entries)]

/-- Another file reads as before. -/
theorem read_of_write_of_ne {other found : String} (h : t.write path text = .ok u)
    (hne : t.locate path ≠ t.locate other) (hread : t.read other = .ok found) :
    u.read other = .ok found := by
  obtain ⟨l, hl, -, -, rfl⟩ := write_eq_ok_iff.mp h
  obtain ⟨k, hk, htext, hslash⟩ := read_eq_ok_iff.mp hread
  have hlk : l ≠ k := by
    rintro rfl
    exact hne (hl.trans hk.symm)
  exact read_eq_ok_iff.mpr ⟨k, locate_put_of_ok hk, by rw [t.text?_put_of_ne text hlk, htext], hslash⟩

/-- A file that is missing in the working directory is still missing. -/
theorem read_notFound_of_write {other : String} (h : t.write path text = .ok u)
    (hne : t.locate path ≠ t.locate other) (hother : t.locate other = .ok (some [name]))
    (hname : name ∉ ["..", "/"]) (hread : t.read other = .error .notFound) :
    u.read other = .error .notFound := by
  obtain ⟨l, hl, -, -, rfl⟩ := write_eq_ok_iff.mp h
  have hlk : l ≠ [name] := by
    rintro rfl
    exact hne (hl.trans hother.symm)
  unfold read at hread ⊢
  rw [hother] at hread
  rw [locate_put_of_ok hother]
  simp only [bind, Except.bind] at hread ⊢
  rwa [t.text?_put_of_ne text hlk, isDirectory_put_of_locate hl hname]

end Written

end FileTree

end ResolverContracts
