import ResolverContracts.Contract.Generate
import ResolverContracts.Proofs.Contract.References
/-!
# How generation can fail

Generation has three ways to fail: a reference without a type expression, two values of an enum with
one identifier, and a declaration that cannot be written. From a schema that was loaded, the first
one never happens, whatever the user's overrides say.

`FailsOnly` says of a computation what its failures can be. It is closed under the ways in
which the sections of a module are put together, so the proof goes through the sections in their
order, and only two of them have anything to show: where a reference is turned into a type, there
is one, and where an enum is declared, a collision is all that can be found.
-/

set_option autoImplicit false

namespace ResolverContracts

/-! ## Failures of a computation -/

/-- All that the computation can fail with has the property. -/
def FailsOnly {ε α : Type} (P : ε → Prop) (x : Except ε α) : Prop := ∀ e, x = .error e → P e

namespace FailsOnly

variable {ε ε' α β : Type} {P : ε → Prop} {x : Except ε α}

theorem ok (a : α) : FailsOnly P (.ok a) := nofun

theorem of_exists (h : ∃ a, x = .ok a) : FailsOnly P x := by
  obtain ⟨a, rfl⟩ := h
  exact ok a

theorem bind {f : α → Except ε β} (hx : FailsOnly P x) (hf : ∀ a, FailsOnly P (f a)) :
    FailsOnly P (x >>= f) := by
  cases x with
  | error e =>
    intro e' he
    obtain rfl : e = e' := Except.error.inj he
    exact hx e rfl
  | ok a => exact hf a

theorem map {f : α → β} (hx : FailsOnly P x) : FailsOnly P (x.map f) := by
  cases x with
  | error e =>
    intro e' he
    obtain rfl : e = e' := Except.error.inj he
    exact hx e rfl
  | ok a => exact ok (f a)

/-- A failure seen from outside is a failure inside, in other words. -/
theorem mapError {f : ε → ε'} {Q : ε' → Prop} (hx : FailsOnly (fun e => Q (f e)) x) :
    FailsOnly Q (x.mapError f) := by
  cases x with
  | error e =>
    intro e' he
    obtain rfl : f e = e' := Except.error.inj he
    exact hx e rfl
  | ok a => exact ok a

theorem mapM {f : α → Except ε β} {xs : List α} (hf : ∀ a ∈ xs, FailsOnly P (f a)) :
    FailsOnly P (xs.mapM f) := by
  induction xs with
  | nil => exact ok []
  | cons a xs ih =>
    rw [List.mapM_cons]
    refine (hf a List.mem_cons_self).bind fun b => ?_
    exact (ih fun a ha => hf a (List.mem_cons_of_mem _ ha)).bind fun bs => ok _

end FailsOnly

/-! ## Failures of declarations -/

/-- Two values of an enum get the same identifier. -/
def SynthesisError.IsCollision (e : SynthesisError) : Prop :=
  ∃ enum identifier first second, e = .enumCollision enum identifier first second

namespace Project

open SynthesisError

variable {p : Project} {owner : String}

theorem failsOnly_typeAt {P : SynthesisError → Prop} {place : String} {access : Access} {r : TypeRef}
    (h : p.Maps r) : FailsOnly P (p.typeAt owner place access r) :=
  FailsOnly.mapError (.of_exists (h access))

theorem failsOnly_inputRecordFields {P : SynthesisError → Prop} {place : InputValue → String}
    {values : List InputValue} (h : ∀ v ∈ values, p.Maps v.type) :
    FailsOnly P (p.inputRecordFields owner place values) :=
  .mapM fun v hv => (failsOnly_typeAt (h v hv)).bind fun _ => .ok _

theorem failsOnly_dataRecord {P : SynthesisError → Prop} {fields : List Field}
    (h : ∀ f ∈ fields, ∀ r ∈ f.refs, p.Maps r) : FailsOnly P (p.dataRecord owner fields) := by
  refine FailsOnly.bind (.mapM fun f hf => ?_) fun fields => .ok _
  exact (failsOnly_typeAt (h f hf _ List.mem_cons_self)).bind fun type => .ok _

/-- A handler needs the types of the arguments of a field as well. -/
theorem failsOnly_handlerField {P : SynthesisError → Prop} {root : TypeExpr} {isSubscription : Bool}
    {f : Field} (h : ∀ r ∈ f.refs, p.Maps r) :
    FailsOnly P (p.handlerField owner root isSubscription f) := by
  have hargs : FailsOnly P (p.argsRecord? owner f) := by
    rw [argsRecord?]
    by_cases hnone : f.arguments.isEmpty = true
    · rw [if_pos hnone]
      exact .ok none
    · rw [if_neg hnone]
      refine (failsOnly_inputRecordFields fun v hv => ?_).bind fun fields => .ok _
      exact h v.type (List.mem_cons_of_mem _ (List.mem_map_of_mem hv))
  refine hargs.bind fun record => ?_
  exact (failsOnly_typeAt (h f.type List.mem_cons_self)).bind fun result => .ok _

theorem failsOnly_handlerOf {P : SynthesisError → Prop} {parameter : Option String}
    {extensions : List Extension} {root : TypeExpr} {isSubscription : Bool} {fields : List Field}
    (h : ∀ f ∈ fields, ∀ r ∈ f.refs, p.Maps r) :
    FailsOnly P (p.handlerOf owner parameter extensions root isSubscription fields) := by
  refine FailsOnly.bind (.mapM fun f hf => ?_) fun answered => .ok _
  exact failsOnly_handlerField (h f hf)

/-- The values of an enum can only collide. -/
theorem failsOnly_enumMembersAfter (name : String) (members : List EnumMember)
    (values : List String) : FailsOnly IsCollision (enumMembersAfter name members values) := by
  induction values generalizing members with
  | nil => exact .ok members
  | cons value values ih =>
    rw [enumMembersAfter]
    split
    · intro e he
      obtain rfl := Except.error.inj he
      exact ⟨_, _, _, _, rfl⟩
    · exact ih _

theorem failsOnly_enumDeclaration (name : String) (values : List String) :
    FailsOnly IsCollision (p.enumDeclaration name values) := by
  rw [enumDeclaration]
  split
  · exact .ok _
  · exact (failsOnly_enumMembersAfter name [] values).map

/-! ## Sections -/

/-- References of a project that resolves do so wherever they are found: in objects, in interfaces and
in input objects. -/
theorem Resolves.maps_of_mem_objects (h : p.Resolves) {o : String × ObjectType}
    (ho : o ∈ p.catalogue.objects) : ∀ f ∈ o.2.fields, ∀ r ∈ f.refs, p.Maps r := by
  intro f hf r hr
  exact h.refs _ (Catalogue.mem_objects_iff.mp ho) r (List.mem_flatMap.mpr ⟨f, hf, hr⟩)

theorem Resolves.maps_of_mem_interfaces (h : p.Resolves) {i : String × List Field}
    (hi : i ∈ p.catalogue.interfaces) : ∀ f ∈ i.2, ∀ r ∈ f.refs, p.Maps r := by
  intro f hf r hr
  exact h.refs _ (Catalogue.mem_interfaces_iff.mp hi) r (List.mem_flatMap.mpr ⟨f, hf, hr⟩)

theorem Resolves.maps_of_mem_inputObjects (h : p.Resolves) {i : String × List InputValue}
    (hi : i ∈ p.catalogue.inputObjects) : ∀ v ∈ i.2, p.Maps v.type := by
  intro v hv
  exact h.refs _ (Catalogue.mem_inputObjects_iff.mp hi) v.type (List.mem_map_of_mem hv)

/-- Members of unions are named without a wrapper, and resolve as names. -/
theorem Resolves.mapNamed_of_mem_unions (h : p.Resolves) {u : String × List String}
    (hu : u ∈ p.catalogue.unions) : ∀ m ∈ u.2, ∃ type, p.mapNamed m = .ok type := by
  intro m hm
  exact h.members _ (Catalogue.mem_unions_iff.mp hu) m hm

/-- **Sections.** Where all references have types, declarations fail on nothing but an enum. The steps
are the sections in the order of the module. -/
theorem failsOnly_declarations (h : p.Resolves) : FailsOnly IsCollision p.declarations := by
  have hinterfaces {i : String × List Field} (hi : i ∈ p.unmappedInterfaces) :=
    h.maps_of_mem_interfaces (List.mem_filter.mp hi).1
  have hobjects {o : String × ObjectType} (ho : o ∈ p.declaredObjects) :=
    h.maps_of_mem_objects (List.mem_filter.mp ho).1
  refine FailsOnly.bind (.mapM fun i hi => failsOnly_handlerOf (hinterfaces hi)) fun _ => ?_
  refine FailsOnly.bind (.mapM fun o ho => failsOnly_handlerOf fun f hf => ?_) fun _ => ?_
  · -- Of the fields of an object, those are left out that an interface has.
    have hdeclared : o ∈ p.declaredObjects := by
      rcases List.mem_append.mp ho with ho | ho
      · exact (List.mem_filter.mp ho).1
      · exact (List.mem_filter.mp ho).1
    exact hobjects hdeclared f (List.mem_filter.mp hf).1
  refine FailsOnly.bind (.mapM fun o ho => ?_) fun _ => ?_
  · exact failsOnly_dataRecord (hobjects (List.mem_filter.mp ho).1)
  refine FailsOnly.bind (.mapM fun i hi => failsOnly_dataRecord (hinterfaces hi)) fun _ => ?_
  refine FailsOnly.bind (.mapM fun i hi => ?_) fun _ => ?_
  · exact (failsOnly_inputRecordFields (h.maps_of_mem_inputObjects hi)).bind fun _ => .ok _
  refine FailsOnly.bind (.mapM fun e _ => failsOnly_enumDeclaration e.1 e.2) fun _ => ?_
  refine FailsOnly.bind (.mapM fun u hu => ?_) fun _ => .ok _
  refine FailsOnly.bind (.mapM fun m hm => ?_) fun _ => .ok _
  exact FailsOnly.mapError (.of_exists (h.mapNamed_of_mem_unions hu m hm))

/-- So the module fails on an enum, or on a declaration that cannot be written. -/
theorem failsOnly_generate (h : p.Resolves) :
    FailsOnly (fun e => (∃ s, e = .synthesis s ∧ s.IsCollision) ∨ ∃ m, e = .rendering m)
      p.generate := by
  refine FailsOnly.bind (.mapError fun e he => ?_) fun set => .mapError fun m _ => .inr ⟨m, rfl⟩
  exact .inl ⟨e, rfl, failsOnly_declarations h e he⟩

end Project

/-- **Generation from a loaded schema.** From a text that loads, and with any overrides, every
reference gets a type, and generation fails only because values of an enum collide or because a
declaration cannot be written. -/
theorem Catalogue.generate_of_load {text : String} {c : Catalogue} (h : load text = .ok c)
    (overrides : Overrides) :
    let p : Project := ⟨c, overrides⟩
    c.Sound ∧ p.Resolves ∧
      (∀ e, p.declarations = .error e → e.IsCollision) ∧
      ∀ e, p.generate = .error e →
        (∃ s, e = .synthesis s ∧ s.IsCollision) ∨ ∃ m, e = .rendering m := by
  intro p
  have hsound := load_sound h
  have hresolves : p.Resolves := Project.resolves_of_sound hsound
  exact ⟨hsound, hresolves, Project.failsOnly_declarations hresolves,
    Project.failsOnly_generate hresolves⟩

/-- A text with marks at two levels, arguments, and a union that is extended before it is defined. -/
def unionText : String :=
  "extend union U = A type A { a(b: [I!]! = []): [U!]! } union U = Query " ++
    "input I { c: E! } type Query { d: A } enum E { x X }"

/-- It loads, and its references have types. -/
theorem Catalogue.generate_of_load_unionText :
    ∃ c, load unionText = .ok c ∧ c.Sound ∧ ∀ overrides, (⟨c, overrides⟩ : Project).Resolves := by
  have hload : (load unionText).isOk = true := by decide +kernel
  cases h : load unionText with
  | error e =>
    rw [h] at hload
    nomatch hload
  | ok c =>
    refine ⟨c, rfl, (generate_of_load h .default).1, fun overrides => ?_⟩
    exact (generate_of_load h overrides).2.1

end ResolverContracts
