import ResolverContracts.Proofs.CommandLine.Files
/-!
# What runs do to files

A run that generates writes one file or none, and it writes the module that its schema and its
configuration stand for (`FileTree.Produces`), which is said here without the order in which a run
reads them. A run that checks writes nothing.

From one run to the next the files are the same but for the output. As long as that is none of the
files that were read, the next run reads what this one has read (`FileTree.Produces.of_write`). So a
second run finds its output up to date, and writing it again changes nothing.
-/

set_option autoImplicit false

namespace ResolverContracts

/-! ## The module of a run -/

/-- The configuration that a run finds: in the file that it is given, or in the usual one. If the
usual one is missing it is the default. -/
inductive FileTree.Configures (t : FileTree) : Option String → Overrides → Prop
  | given {path text : String} {o : Overrides} (hread : t.read path = .ok text)
      (hparse : Overrides.parse text = .ok o) : Configures t (some path) o
  | usual {text : String} {o : Overrides} (hread : t.read usualConfig = .ok text)
      (hparse : Overrides.parse text = .ok o) : Configures t none o
  | default (hread : t.read usualConfig = .error .notFound) : Configures t none .default

/-- The module of a schema and a configuration, both as they stand in files. A context type among the
options goes before the configured one. -/
inductive FileTree.Produces (t : FileTree) (options : GenerateOptions) (module : String) : Prop
  | of {configured : Overrides} {schema : String} {catalogue : Catalogue}
      (hconfigured : t.Configures options.config configured)
      (hschema : t.read options.schema = .ok schema) (hload : Catalogue.load schema = .ok catalogue)
      (hmodule : Project.generate ⟨catalogue, { configured with
        contextType := options.contextType.getD configured.contextType }⟩ = .ok module) :
      Produces t options module

section Modules

variable {t : FileTree} {options : GenerateOptions} {text : String}

theorem Files.overridesAt_eq_ok_iff {files : Files} {path : String} {o : Overrides} :
    files.overridesAt path = .ok o ↔ ∃ text, files path = .ok text ∧ Overrides.parse text = .ok o := by
  simp only [overridesAt, require, bind_eq_ok_iff, mapError_eq_ok_iff]

theorem FileTree.overrides_eq_ok_iff {config : Option String} {o : Overrides} :
    Files.overrides t.read config = .ok o ↔ t.Configures config o := by
  cases config with
  | some path =>
    rw [Files.overrides, Files.overridesAt_eq_ok_iff]
    constructor
    · rintro ⟨text, hread, hparse⟩
      exact .given hread hparse
    · rintro ⟨hread, hparse⟩
      exact ⟨_, hread, hparse⟩
  | none =>
    unfold Files.overrides
    simp only
    constructor
    · intro h
      split at h
      · next hmissing =>
        obtain rfl := Except.ok.inj h
        exact .default hmissing
      · obtain ⟨text, hread, hparse⟩ := Files.overridesAt_eq_ok_iff.mp h
        exact .usual hread hparse
    · rintro (_ | ⟨hread, hparse⟩ | hread)
      · rw [Files.overridesAt_eq_ok_iff.mpr ⟨_, hread, hparse⟩, hread]
        rfl
      · rw [hread]
        rfl

/-- A run finds its module exactly if there is one. -/
theorem FileTree.moduleFor_eq_ok_iff :
    Files.moduleFor t.read options = .ok text ↔ t.Produces options text := by
  simp only [Files.moduleFor, Files.catalogueAt, Files.require, bind_eq_ok_iff, mapError_eq_ok_iff,
    overrides_eq_ok_iff]
  constructor
  · rintro ⟨configured, hconfigured, catalogue, ⟨schema, hschema, hload⟩, hmodule⟩
    exact .of hconfigured hschema hload hmodule
  · rintro ⟨hconfigured, hschema, hload, hmodule⟩
    exact ⟨_, hconfigured, _, ⟨_, hschema, hload⟩, hmodule⟩

/-- A module has text, as the last line of it ends. -/
theorem DeclarationSet.ne_empty_of_render {s : DeclarationSet} (h : s.render = .ok text) :
    text ≠ "" := by
  obtain ⟨ledger, -, h⟩ := bind_eq_ok_iff.mp h
  obtain rfl := Except.ok.inj h
  simp

theorem FileTree.Produces.ne_empty (h : t.Produces options text) : text ≠ "" := by
  obtain ⟨-, -, -, hmodule⟩ := h
  rw [Project.generate] at hmodule
  obtain ⟨set, -, hrender⟩ := bind_eq_ok_iff.mp hmodule
  exact DeclarationSet.ne_empty_of_render (mapError_eq_ok_iff.mp hrender)

/-! ## From one run to the next -/

theorem FileTree.locate_usualConfig (t : FileTree) :
    t.locate usualConfig = .ok (some ["resgen.json"]) := by
  have hpath : Path.ofText usualConfig = ⟨.here, ["resgen.json"], false⟩ := by decide
  rw [locate, if_neg (by decide), hpath]
  rfl

theorem FileTree.Configures.of_write {u : FileTree} {path module : String} {config : Option String}
    {o : Overrides} (h : t.Configures config o) (hwrite : t.write path module = .ok u)
    (hne : t.locate path ≠ t.locate (config.getD usualConfig)) : u.Configures config o := by
  cases h with
  | given hread hparse => exact .given (read_of_write_of_ne hwrite hne hread) hparse
  | usual hread hparse => exact .usual (read_of_write_of_ne hwrite hne hread) hparse
  | default hread =>
    exact .default (read_notFound_of_write hwrite hne t.locate_usualConfig (by decide) hread)

/-- A write to none of the files that a run reads leaves the module of the run as it was. -/
theorem FileTree.Produces.of_write {u : FileTree} {path module : String}
    (h : t.Produces options text) (hwrite : t.write path module = .ok u)
    (hschema : t.locate path ≠ t.locate options.schema)
    (hconfig : t.locate path ≠ t.locate (options.config.getD usualConfig)) :
    u.Produces options text := by
  obtain ⟨hconfigured, hread, hload, hmodule⟩ := h
  exact .of (hconfigured.of_write hwrite hconfig) (read_of_write_of_ne hwrite hschema hread) hload
    hmodule

end Modules

/-! ## Generating -/

/-- The run ends with an error. -/
def Outcome.Fails (o : Outcome) : Prop := ∃ failure, o.ending = .failure failure

namespace GenerateOptions

/-- What generating does to a tree of files. -/
def run (options : GenerateOptions) (verbosity : Verbosity) (t : FileTree) : Outcome × FileTree :=
  Invocation.run ⟨.generate options, verbosity⟩ t

variable {options : GenerateOptions} {verbosity : Verbosity} {t : FileTree} {path text : String}

theorem run_eq (options : GenerateOptions) (verbosity : Verbosity) (t : FileTree) :
    options.run verbosity t = (options.plan t.read verbosity.quiet).perform t := rfl

/-- Without a module the run fails and nothing is written. -/
theorem run_of_not_produces (h : ¬ ∃ text, t.Produces options text) :
    (options.run verbosity t).1.Fails ∧ (options.run verbosity t).2 = t := by
  rw [run_eq, plan]
  cases hmodule : Files.moduleFor t.read options with
  | error failure => exact ⟨⟨failure, rfl⟩, rfl⟩
  | ok text => exact absurd ⟨text, FileTree.moduleFor_eq_ok_iff.mp hmodule⟩ h

/-- With a module the run does with it what the options say. -/
theorem run_of_produces (h : t.Produces options text) :
    options.run verbosity t = (options.planFor t.read verbosity.quiet text).perform t := by
  rw [run_eq, plan, FileTree.moduleFor_eq_ok_iff.mpr h]

/-- A module that is not to be written is printed or compared. -/
theorem run_unwritten (h : t.Produces options text)
    (hkeep : options.check = true ∨ options.output = none) : (options.run verbosity t).2 = t := by
  rw [run_of_produces h, planFor]
  split
  · rfl
  · next path hpath =>
    rw [if_pos (hkeep.resolve_right (by simp [hpath]))]
    split <;> rfl

/-- A file is up to date exactly if it has the text of the module. A missing file counts as an empty
one, and no module is empty. -/
theorem run_compared (h : t.Produces options text) (hcheck : options.check = true)
    (hpath : options.output = some path) :
    (options.run verbosity t).1.ending = .exit 0 ↔ t.read path = .ok text := by
  have hsame : (t.read path).toOption.getD "" = text ↔ t.read path = .ok text := by
    cases t.read path with
    | error e => exact iff_of_false (Ne.symm h.ne_empty) nofun
    | ok found => exact Except.ok.injEq found text ▸ Iff.rfl
  rw [run_of_produces h, planFor, hpath]
  simp only [hcheck, if_true]
  split
  · next heq => exact iff_of_true rfl (hsame.mp heq)
  · next hne => exact iff_of_false (by simp [Plan.perform]) fun hread => hne (hsame.mpr hread)

/-- The module is written, or the run fails. -/
theorem run_written (verbosity : Verbosity) (h : t.Produces options text) (hcheck : options.check = false)
    (hpath : options.output = some path) :
    (∃ e, t.write path text = .error e ∧ options.run verbosity t =
        (.failed (.unwritable path e), t)) ∨
      ∃ u, t.write path text = .ok u ∧ options.run verbosity t =
        (.success (noteUnless verbosity.quiet ("Generated " ++ path)), u) := by
  rw [run_of_produces h, planFor, hpath]
  simp only [hcheck, Bool.false_eq_true, if_false, Plan.perform]
  cases t.write path text with
  | error e => exact .inl ⟨e, rfl, rfl⟩
  | ok u => exact .inr ⟨u, rfl, rfl⟩

/-- A run that writes has written the module. -/
theorem exists_write_of_run (h : ¬ (options.run verbosity t).1.Fails) (hcheck : options.check = false)
    (hpath : options.output = some path) :
    ∃ text u, t.Produces options text ∧ t.write path text = .ok u ∧ options.run verbosity t =
      (.success (noteUnless verbosity.quiet ("Generated " ++ path)), u) := by
  by_cases hproduces : ∃ text, t.Produces options text
  · obtain ⟨text, hproduces⟩ := hproduces
    obtain ⟨e, -, hrun⟩ | ⟨u, hwrite, hrun⟩ := run_written verbosity hproduces hcheck hpath
    · exact absurd ⟨_, by rw [hrun]; rfl⟩ h
    · exact ⟨text, u, hproduces, hwrite, hrun⟩
  · exact absurd (run_of_not_produces hproduces).1 h

/-- A run that fails writes nothing. -/
theorem run_failed (h : (options.run verbosity t).1.Fails) : (options.run verbosity t).2 = t := by
  by_cases hproduces : ∃ text, t.Produces options text
  · obtain ⟨text, hproduces⟩ := hproduces
    by_cases hkeep : options.check = true ∨ options.output = none
    · exact run_unwritten hproduces hkeep
    · rw [not_or, Bool.not_eq_true] at hkeep
      obtain ⟨hcheck, houtput⟩ := hkeep
      obtain ⟨path, hpath⟩ := Option.ne_none_iff_exists'.mp houtput
      obtain ⟨e, -, hrun⟩ | ⟨u, -, hrun⟩ := run_written verbosity hproduces hcheck hpath
      · rw [hrun]
      · obtain ⟨failure, hfailure⟩ := h
        rw [hrun] at hfailure
        exact nomatch hfailure
  · exact (run_of_not_produces hproduces).2

/-- What a user may rely on when a module is generated from the files `t`. -/
structure RunsSafely (options : GenerateOptions) (verbosity : Verbosity) (t : FileTree) : Prop where
  /-- A run that fails, that only compares or that has no output changes no file. -/
  unchanged : (options.run verbosity t).1.Fails ∨ options.check = true ∨ options.output = none →
    (options.run verbosity t).2 = t
  /-- Any other run ends well, and gives the output the text of the module and no other file another
  text. -/
  written : ¬ (options.run verbosity t).1.Fails → options.check = false →
    ∀ path ∈ options.output, (options.run verbosity t).1.ending = .exit 0 ∧
      ∃ module place, t.Produces options module ∧ t.locate path = .ok (some place) ∧
        (options.run verbosity t).2.read path = .ok module ∧
        (options.run verbosity t).2.text? place = some module ∧
        ∀ other, other ≠ place → (options.run verbosity t).2.text? other = t.text? other
  /-- Where there is a module, a comparison succeeds exactly if the output has its text. -/
  compared : options.check = true → ∀ path ∈ options.output, ∀ module, t.Produces options module →
    ((options.run verbosity t).1.ending = .exit 0 ↔ t.read path = .ok module)
  /-- Behind a run that writes none of the files it reads, the output is up to date, and the same
  run ends as before and changes nothing. -/
  settled : ¬ (options.run verbosity t).1.Fails → options.check = false →
    ∀ path ∈ options.output, t.locate path ≠ t.locate options.schema →
      t.locate path ≠ t.locate (options.config.getD usualConfig) →
      (run { options with check := true } verbosity (options.run verbosity t).2).1.ending = .exit 0 ∧
        options.run verbosity (options.run verbosity t).2 = options.run verbosity t

theorem runsSafely (options : GenerateOptions) (verbosity : Verbosity) (t : FileTree) :
    options.RunsSafely verbosity t where
  unchanged h := by
    obtain hfails | hkeep := h
    · exact run_failed hfails
    · by_cases hproduces : ∃ text, t.Produces options text
      · obtain ⟨text, hproduces⟩ := hproduces
        exact run_unwritten hproduces hkeep
      · exact (run_of_not_produces hproduces).2
  written hsuccess hcheck path hpath := by
    obtain ⟨text, u, hproduces, hwrite, hrun⟩ := exists_write_of_run hsuccess hcheck hpath
    obtain ⟨place, hplace, -, -, hu⟩ := FileTree.write_eq_ok_iff.mp hwrite
    rw [hrun]
    refine ⟨rfl, text, place, hproduces, hplace, FileTree.read_of_write hwrite, ?_, ?_⟩
    · rw [hu, FileTree.text?_put_self]
    · intro other hother
      rw [hu, FileTree.text?_put_of_ne _ _ hother.symm]
  compared hcheck path hpath module hmodule := run_compared hmodule hcheck hpath
  settled hsuccess hcheck path hpath hschema hconfig := by
    obtain ⟨text, u, hproduces, hwrite, hrun⟩ := exists_write_of_run hsuccess hcheck hpath
    -- The next run finds the module of this one, as the write left the files that are read.
    have hagain : u.Produces options text := hproduces.of_write hwrite hschema hconfig
    rw [hrun]
    constructor
    · have hcompare : u.Produces { options with check := true } text := by
        obtain ⟨hconfigured, hread, hload, hmodule⟩ := hagain
        exact .of hconfigured hread hload hmodule
      exact (run_compared hcompare rfl hpath).mpr (FileTree.read_of_write hwrite)
    · have hsame := FileTree.write_of_write hwrite
      obtain ⟨e, herror, -⟩ | ⟨v, hv, hrun⟩ := run_written verbosity hagain hcheck hpath
      · rw [hsame] at herror
        exact nomatch herror
      · rw [hsame] at hv
        obtain rfl := Except.ok.inj hv
        exact hrun

end GenerateOptions

/-! ## Checking -/

/-- The file at a path is there and holds a schema. -/
def FileTree.HoldsSchema (t : FileTree) (path : String) : Prop :=
  ∃ text catalogue, t.read path = .ok text ∧ Catalogue.load text = .ok catalogue

/-- Of files that can all be read, none is refused exactly if all are schemas. -/
theorem refused_checkFiles {t : FileTree} (verbose : Bool) {paths : List String}
    (h : ∀ path ∈ paths, ∃ text, t.read path = .ok text) :
    ∃ n, (checkFiles t.read verbose paths).refused = .ok n ∧
      (n = 0 ↔ ∀ path ∈ paths, t.HoldsSchema path) := by
  induction paths with
  | nil => exact ⟨0, rfl, by simp⟩
  | cons path paths ih =>
    obtain ⟨⟨text, hread⟩, hrest⟩ := List.forall_mem_cons.mp h
    obtain ⟨n, hn, hiff⟩ := ih hrest
    simp only [checkFiles, hread, List.forall_mem_cons]
    -- A file that is refused counts, and then not all of them hold a schema.
    cases hload : Catalogue.load text with
    | ok catalogue =>
      refine ⟨n, hn, hiff.trans ?_⟩
      exact (and_iff_right ⟨text, catalogue, hread, hload⟩).symm
    | error e =>
      refine ⟨n + 1, by simp only [hn]; rfl, iff_of_false (Nat.succ_ne_zero n) ?_⟩
      rintro ⟨⟨found, catalogue, hfound, hcatalogue⟩, -⟩
      rw [hread] at hfound
      obtain rfl := Except.ok.inj hfound
      rw [hload] at hcatalogue
      cases hcatalogue

/-- A check of files that can all be read succeeds exactly if all are schemas. -/
theorem ending_checkOutcome {t : FileTree} (verbosity : Verbosity) {paths : List String}
    (h : ∀ path ∈ paths, ∃ text, t.read path = .ok text) :
    (checkOutcome t.read verbosity paths).ending = .exit 0 ↔
      ∀ path ∈ paths, t.HoldsSchema path := by
  obtain ⟨n, hn, hiff⟩ := refused_checkFiles verbosity.verbose h
  rw [← hiff]
  unfold checkOutcome
  simp only [hn]
  cases n with
  | zero => simp
  | succ n => simp

/-! ## Runs -/

/-- **What runs do to files.** Generating touches its output alone, and that only where it succeeds;
what it has written is up to date and written again the same. Checking touches nothing, and of files
that can be read it accepts exactly the schemas. -/
theorem Invocation.run_changes_output_only (t : FileTree) (verbosity : Verbosity) :
    (∀ options : GenerateOptions, options.RunsSafely verbosity t) ∧
      ∀ paths, (run ⟨.check paths, verbosity⟩ t).2 = t ∧
        ((∀ path ∈ paths, ∃ text, t.read path = .ok text) →
          ((run ⟨.check paths, verbosity⟩ t).1.ending = .exit 0 ↔
            ∀ path ∈ paths, t.HoldsSchema path)) := by
  refine ⟨fun options => options.runsSafely verbosity t, fun paths => ⟨rfl, fun h => ?_⟩⟩
  exact ending_checkOutcome verbosity h

end ResolverContracts
