import ResolverContracts.Proofs.Contract.Closed
import ResolverContracts.Proofs.Schema.Implementation
/-!
# Inherited signatures

The contract of an object takes over the generic contracts of the interfaces it implements, and then
leaves out every field that one of them has, going by its name alone. So the signature of such a field
is the one of the interface, with the type of the object in the place of the parameter.

It is the signature the object would have declared as far as the field of the interface is the field
of the object. An object may do better than its interface asks, with a more special type or with
arguments of its own; the signature it takes over says nothing of that.
-/

set_option autoImplicit false

namespace ResolverContracts

/-! ## Parameters -/

namespace TypeExpr

mutual

/-- A type with another one in the place of a parameter. -/
def instantiate (parameter : String) (type : TypeExpr) : TypeExpr → TypeExpr
  | .parameter name => if name = parameter then type else .parameter name
  | list element form access => list (instantiate parameter type element) form access
  | nullable inner => nullable (instantiate parameter type inner)
  | union members => union (instantiateMembers parameter type members)
  | primitive t => primitive t
  | named ref => named ref
  | emptyRecord => emptyRecord

/-- Types with another one in the place of a parameter. -/
def instantiateMembers (parameter : String) (type : TypeExpr) : List TypeExpr → List TypeExpr
  | [] => []
  | t :: ts => instantiate parameter type t :: instantiateMembers parameter type ts

end

variable {n : String} {type : TypeExpr}

mutual

/-- A type without the parameter stays what it is. -/
theorem instantiate_of_not_mem_leaves : ∀ (t : TypeExpr), .parameter n ∉ t.leaves →
    instantiate n type t = t
  | .parameter name, h => by
    have hne : name ≠ n := by
      rintro rfl
      exact h (List.mem_singleton_self _)
    rw [instantiate, if_neg hne]
  | list element form access, h => by
    rw [instantiate, instantiate_of_not_mem_leaves element h]
  | nullable inner, h => by
    rw [instantiate, instantiate_of_not_mem_leaves inner h]
  | union members, h => by
    rw [instantiate, instantiateMembers_of_not_mem_leaves members h]
  | primitive _, _ => rfl
  | named _, _ => rfl
  | emptyRecord, _ => rfl

theorem instantiateMembers_of_not_mem_leaves : ∀ (ts : List TypeExpr),
    .parameter n ∉ leavesOfMembers ts → instantiateMembers n type ts = ts
  | [], _ => rfl
  | t :: ts, h => by
    rw [leavesOfMembers, List.mem_append, not_or] at h
    rw [instantiateMembers, instantiate_of_not_mem_leaves t h.1,
      instantiateMembers_of_not_mem_leaves ts h.2]

end

theorem mem_parameters_iff {t : TypeExpr} : n ∈ t.parameters ↔ .parameter n ∈ t.leaves := by
  rw [parameters, List.mem_filterMap]
  constructor
  · rintro ⟨leaf, hleaf, h⟩
    cases leaf with
    | parameter name =>
      obtain rfl := Option.some.inj h
      exact hleaf
    | _ => cases h
  · intro h
    exact ⟨_, h, rfl⟩

end TypeExpr

/-- A field of a generic contract, for a type that takes the contract over. -/
def HandlerField.instantiate (parameter : String) (type : TypeExpr) (f : HandlerField) :
    HandlerField where
  name := f.name
  isSubscription := f.isSubscription
  root := TypeExpr.instantiate parameter type f.root
  args := TypeExpr.instantiate parameter type f.args
  result := TypeExpr.instantiate parameter type f.result

/-! ## Signatures -/

/-- The name of a contract tells whose it is. -/
theorem eq_of_resolversName_eq {a b : String} (h : resolversName a = resolversName b) : a = b :=
  (String.append_left_inj "Resolvers").mp h

namespace DeclarationSet

open Project

/-- The signatures that a contract gives: its own, and those of the contracts it takes over. -/
inductive Gives (set : DeclarationSet) (h : Handler) : HandlerField → Prop
  | own {a : HandlerField} (ha : a ∈ h.fields) : Gives set h a
  | inherited {e : Extension} {g : Handler} {parameter : String} {a : HandlerField}
    (he : e ∈ h.extensions) (hg : .handler g ∈ set.declarations) (hname : g.name = e.contract)
    (hparameter : g.parameter = some parameter) (ha : a ∈ g.fields) :
    Gives set h (a.instantiate parameter e.root)

variable {set : DeclarationSet} {p : Project} {a : HandlerField} {field : Field}

/-- What a generic contract says of a field, said for a type. Only the root speaks of the parameter. -/
theorem IsSignature.instantiate (hc : p.catalogue.WellNamed) {n : String}
    (h : set.IsSignature p (.parameter n) field a) (type : TypeExpr) :
    set.IsSignature p type field (a.instantiate n type) := by
  have hroot : (a.instantiate n type).root = type := by
    show TypeExpr.instantiate n type a.root = type
    rw [h.root, TypeExpr.instantiate, if_pos rfl]
  have hresult : (a.instantiate n type).result = a.result := by
    have hnone := (covers_mapType hc h.result).parameters n
    rw [TypeExpr.mem_parameters_iff] at hnone
    exact TypeExpr.instantiate_of_not_mem_leaves a.result hnone
  have hargs : (a.instantiate n type).args = a.args := by
    show TypeExpr.instantiate n type a.args = a.args
    by_cases hnone : field.arguments = []
    · rw [h.arguments.nothing.mpr hnone]
      rfl
    · obtain ⟨r, -, hrecord, -⟩ := h.arguments.record hnone
      rw [hrecord]
      rfl
  refine ⟨h.name, hroot, ?_, ?_⟩
  · rw [hresult]
    exact h.result
  · rw [hargs]
    exact h.arguments

namespace Parts.MadeFrom

variable {s : Parts} {made : HandlerWithArgs}

/-! Contracts are referred to by name. As a name stands for one type, the contract under the name of a
type is the one of the type. -/

/-- Handlers of different types have different names, so the name tells what a handler is for. -/
theorem objectHandler_of_name (hs : s.MadeFrom p set) (hc : p.catalogue.WellNamed)
    (hmade : made ∈ s.handlers) {o : String × ObjectType} (ho : o ∈ p.catalogue.objects)
    (hname : made.handler.name = resolversName o.1) : p.ObjectHandler o made := by
  obtain ⟨name, object⟩ := o
  rcases hs.handler_cases hmade with ⟨⟨n, fields⟩, hi, hhandler⟩ | ⟨⟨n, object'⟩, ho', hhandler⟩
  · -- No interface has the name of an object.
    obtain rfl : n = name := eq_of_resolversName_eq (hhandler.name.symm.trans hname)
    have hi := Catalogue.mem_interfaces_iff.mp (List.mem_filter.mp hi).1
    nomatch hc.shape_unique hi (Catalogue.mem_objects_iff.mp ho)
  · obtain rfl : n = name := eq_of_resolversName_eq (hhandler.name.symm.trans hname)
    have ho' := Catalogue.mem_objects_iff.mp (List.mem_filter.mp ho').1
    obtain rfl := TypeShape.object.inj (hc.shape_unique ho' (Catalogue.mem_objects_iff.mp ho))
    exact hhandler

theorem interfaceHandler_of_name (hs : s.MadeFrom p set) (hc : p.catalogue.WellNamed)
    (hmade : made ∈ s.handlers) {i : String × List Field} (hi : i ∈ p.catalogue.interfaces)
    (hname : made.handler.name = resolversName i.1) : p.InterfaceHandler i made := by
  obtain ⟨name, fields⟩ := i
  rcases hs.handler_cases hmade with ⟨⟨n, fields'⟩, hi', hhandler⟩ | ⟨⟨n, object⟩, ho, hhandler⟩
  · obtain rfl : n = name := eq_of_resolversName_eq (hhandler.name.symm.trans hname)
    have hi' := Catalogue.mem_interfaces_iff.mp (List.mem_filter.mp hi').1
    obtain rfl := TypeShape.interface.inj (hc.shape_unique hi' (Catalogue.mem_interfaces_iff.mp hi))
    exact hhandler
  · obtain rfl : n = name := eq_of_resolversName_eq (hhandler.name.symm.trans hname)
    have ho := Catalogue.mem_objects_iff.mp (List.mem_filter.mp ho).1
    nomatch hc.shape_unique ho (Catalogue.mem_interfaces_iff.mp hi)

/-- The contracts that an object takes over, and the interfaces they are of. -/
theorem interfaceHandler_of_extension (hs : s.MadeFrom p set) (hc : p.catalogue.WellNamed)
    {o : String × ObjectType} (ho : p.ObjectHandler o made) {e : Extension}
    (he : e ∈ made.handler.extensions) {g : HandlerWithArgs} (hg : g ∈ s.handlers)
    (hname : g.handler.name = e.contract) :
    e.root = p.mapComposite o.1 ∧ ∃ i ∈ p.extendedInterfaces o.2, p.InterfaceHandler i g := by
  rw [ho.extensions] at he
  obtain ⟨i, hi, rfl⟩ := List.mem_map.mp he
  have hinterface := (List.mem_filter.mp (of_mem_extendedInterfaces hi).2).1
  exact ⟨rfl, i, hi, hs.interfaceHandler_of_name hc hg hinterface hname⟩

/-- A field of an interface whose contract is taken over has a signature there, which is given to the
object for its own type. -/
theorem exists_gives_inherited (hs : s.MadeFrom p set) {o : String × ObjectType}
    (hobject : p.ObjectHandler o made) {i : String × List Field} (hi : i ∈ p.extendedInterfaces o.2)
    {g : Field} (hg : g ∈ i.2) :
    ∃ a, set.IsSignature p (.parameter "T") g a ∧
      set.Gives made.handler (a.instantiate "T" (p.mapComposite o.1)) := by
  obtain ⟨generic, hgeneric, hinterface⟩ :=
    hs.exists_interfaceHandler (of_mem_extendedInterfaces hi).2
  have hextension : (⟨resolversName i.1, p.mapComposite o.1⟩ : Extension) ∈
      made.handler.extensions := by
    rw [hobject.extensions]
    exact List.mem_map.mpr ⟨i, hi, rfl⟩
  obtain ⟨a, ha, hsignature⟩ := hs.exists_signature hgeneric hinterface hg
  exact ⟨a, hsignature, .inherited hextension (hs.mem_iff.mpr (.handler hgeneric)) hinterface.name
    hinterface.parameter ha⟩

/-- Every field of an object has a signature: its own one if no contract that is taken over has the
field, and else the one there. -/
theorem exists_gives_of_field (hs : s.MadeFrom p set) (hmade : made ∈ s.handlers)
    {o : String × ObjectType} (hobject : p.ObjectHandler o made) {f : Field} (hf : f ∈ o.2.fields) :
    ∃ a, set.Gives made.handler a ∧ a.name = f.name := by
  -- Names decide, as they do where fields are left out.
  by_cases hinherited : f.name ∈ (p.extendedInterfaces o.2).flatMap fun i => i.2.map (·.name)
  · obtain ⟨i, hi, hname⟩ := List.mem_flatMap.mp hinherited
    obtain ⟨g, hg, hname⟩ := List.mem_map.mp hname
    obtain ⟨a, hsignature, hgives⟩ := hs.exists_gives_inherited hobject hi hg
    exact ⟨_, hgives, hsignature.name.trans hname⟩
  · have hown : f ∈ p.ownFields o.2 := List.mem_filter.mpr ⟨hf, by simpa using hinherited⟩
    obtain ⟨a, ha, hsignature⟩ := hs.exists_signature hmade hobject hown
    exact ⟨a, .own ha, hsignature.name⟩

/-- A field of an extended interface reaches the object with the type of the object in place of the
parameter. -/
theorem exists_gives_of_extended (hs : s.MadeFrom p set) (hc : p.catalogue.WellNamed)
    {o : String × ObjectType} (ho : o ∈ p.declaredObjects) {i : String × List Field}
    (hi : i ∈ p.extendedInterfaces o.2) {g : Field} (hg : g ∈ i.2) :
    ∃ h, .handler h ∈ set.declarations ∧ h.name = resolversName o.1 ∧
      ∃ a, set.Gives h a ∧ set.IsSignature p (p.mapComposite o.1) g a := by
  obtain ⟨made, hmade, hobject⟩ := hs.exists_objectHandler ho
  obtain ⟨a, hsignature, hgives⟩ := hs.exists_gives_inherited hobject hi hg
  exact ⟨made.handler, hs.mem_iff.mpr (.handler hmade), hobject.name, _, hgives,
    hsignature.instantiate hc _⟩

theorem exists_gives (hs : s.MadeFrom p set) (hc : p.catalogue.WellNamed)
    {o : String × ObjectType} (ho : o ∈ p.catalogue.objects) {f : Field} (hf : f ∈ o.2.fields) :
    ∃ h, .handler h ∈ set.declarations ∧ h.name = resolversName o.1 ∧
      ∃ a, set.Gives h a ∧ a.name = f.name := by
  obtain ⟨made, hmade, hobject⟩ := hs.exists_objectHandler (mem_declaredObjects hc ho)
  exact ⟨made.handler, hs.mem_iff.mpr (.handler hmade), hobject.name,
    hs.exists_gives_of_field hmade hobject hf⟩

/-- A signature that stands in the contract of an object says of a field of the object all there is to
say. -/
theorem isSignature_of_own (hs : s.MadeFrom p set) (hc : p.catalogue.WellNamed)
    {o : String × ObjectType} (ho : o ∈ p.catalogue.objects) {h : Handler}
    (hh : .handler h ∈ set.declarations) (hname : h.name = resolversName o.1) (ha : a ∈ h.fields) :
    ∃ f ∈ o.2.fields, set.IsSignature p (p.mapComposite o.1) f a ∧
      a.isSubscription = p.catalogue.roots.isSubscription o.1 := by
  cases hs.mem_iff.mp hh with
  | handler hmade =>
    have hobject := hs.objectHandler_of_name hc hmade ho hname
    obtain ⟨f, hf, hsignature, hkind⟩ := hs.isSignature_of_mem hmade hobject ha
    exact ⟨f, (List.mem_filter.mp hf).1, hsignature, hkind⟩

/-- **Signatures of an object.** A signature that the contract of an object gives stands there itself,
or it was taken over and is that of a field of an interface. -/
theorem isSignature_of_gives (hs : s.MadeFrom p set) (hc : p.catalogue.WellNamed)
    {o : String × ObjectType} (ho : o ∈ p.catalogue.objects) {h : Handler}
    (hh : .handler h ∈ set.declarations) (hname : h.name = resolversName o.1) (ha : set.Gives h a) :
    a ∈ h.fields ∨ ∃ i ∈ p.extendedInterfaces o.2, ∃ g ∈ i.2,
      set.IsSignature p (p.mapComposite o.1) g a ∧ a.isSubscription = false := by
  cases hs.mem_iff.mp hh with
  | handler hmade =>
    have hobject := hs.objectHandler_of_name hc hmade ho hname
    cases ha with
    | own ha => exact .inl ha
    | inherited he hg hcontract hparameter ha =>
      cases hs.mem_iff.mp hg with
      | handler hgeneric =>
        obtain ⟨hroot, i, hi, hinterface⟩ :=
          hs.interfaceHandler_of_extension hc hobject he hgeneric hcontract
        obtain ⟨g, hg, hsignature, hkind⟩ := hs.isSignature_of_mem hgeneric hinterface ha
        -- The parameter that is replaced is the one that the root of the signature is.
        obtain rfl := Option.some.inj (hinterface.parameter.symm.trans hparameter)
        rw [hroot]
        exact .inr ⟨i, hi, g, hg, hsignature.instantiate hc _, hkind⟩

end Parts.MadeFrom

end DeclarationSet

/-- **Inherited signatures.** From a schema that loads and whose objects implement what they say, and
with any overrides, every field of an object has a signature, and every signature the contract of the
object gives it is for the type of the object. Whatever stands in the contract itself says of the field
all there is to say, its kind included. Every other signature was taken over from an interface, and is
that of the field which is implemented there. So the result is that of the field as far as the contracts
taken over have the same type, and the arguments are those of the field as far as they have the same
arguments. -/
theorem Catalogue.signatures_of_load {text : String} {c : Catalogue} (h : load text = .ok c)
    (hvalid : c.ImplementsValidly (Document.parse text).document.definitions)
    (overrides : Overrides) {set : DeclarationSet}
    (hset : (⟨c, overrides⟩ : Project).declarations = .ok set) {o : String × ObjectType}
    (ho : o ∈ c.objects) {f : Field} (hf : f ∈ o.2.fields) :
    let p : Project := ⟨c, overrides⟩
    let root := p.mapComposite o.1
    (∃ h, .handler h ∈ set.declarations ∧ h.name = resolversName o.1 ∧
      ∃ a, set.Gives h a ∧ a.name = f.name) ∧
    ∀ h, .handler h ∈ set.declarations → h.name = resolversName o.1 →
      ∀ a, set.Gives h a → a.name = f.name →
        a.root = root ∧
        (a ∈ h.fields → set.IsSignature p root f a ∧
          a.isSubscription = c.roots.isSubscription o.1) ∧
        (a ∈ h.fields ∨ ∃ i ∈ p.extendedInterfaces o.2, ∃ g ∈ i.2,
          c.FieldImplements (Document.parse text).document.definitions f g ∧
          set.IsSignature p root g a) ∧
        ((∀ i ∈ p.extendedInterfaces o.2, ∀ g ∈ i.2, g.name = f.name → g.type = f.type) →
          p.mapType .readonly f.type = .ok a.result) ∧
        ((∀ i ∈ p.extendedInterfaces o.2, ∀ g ∈ i.2, g.name = f.name →
            g.arguments = f.arguments) →
          set.ListsArguments p f a.args) ∧
        (c.roots.isSubscription o.1 = false → a.isSubscription = false) := by
  intro p root
  have hc := load_wellNamed h
  obtain ⟨s, hs⟩ := Project.declarations_eq_ok hset
  refine ⟨hs.exists_gives hc ho hf, fun h hh hname a ha hfield => ?_⟩
  have hown (ha : a ∈ h.fields) : set.IsSignature p root f a ∧
      a.isSubscription = c.roots.isSubscription o.1 := by
    obtain ⟨f', hf', hsignature, hkind⟩ := hs.isSignature_of_own hc ho hh hname ha
    -- Fields of one name are the same field.
    have hsame : f.name = f'.name := hfield.symm.trans hsignature.name
    obtain rfl : f = f' := eq_of_key_eq (hc.object_fields o ho) hf hf' hsame
    exact ⟨hsignature, hkind⟩
  rcases hs.isSignature_of_gives hc ho hh hname ha with ha | ⟨i, hi, g, hg, hsignature, hkind⟩
  · obtain ⟨hsignature, hkind⟩ := hown ha
    exact ⟨hsignature.root, hown, .inl ha, fun _ => hsignature.result,
      fun _ => hsignature.arguments, hkind.trans⟩
  · obtain ⟨himplements, hunmapped⟩ := Project.of_mem_extendedInterfaces hi
    have hinterface := (List.mem_filter.mp hunmapped).1
    have hsame : f.name = g.name := hfield.symm.trans hsignature.name
    have hfg := hvalid.fieldImplements hc ho hinterface himplements hf hg hsame
    refine ⟨hsignature.root, hown, .inr ⟨i, hi, g, hg, hfg, hsignature⟩, fun htype => ?_,
      fun hargs => ?_, fun _ => hkind⟩
    · rw [← htype i hi g hg hsame.symm]
      exact hsignature.result
    · exact hsignature.arguments.congr (hargs i hi g hg hsame.symm)

/-! ## A field that is more special than its interface asks -/

/-- A user comes after a user, as nodes come after nodes. -/
def nodeText : String :=
  "interface Node { next: Node } type User implements Node { next: User } type Query { a: User }"

/-- What comes next, for a node. -/
def nodeNext : Field := ⟨"next", .named "Node", []⟩

/-- What comes next, for a user. -/
def userNext : Field := ⟨"next", .named "User", []⟩

/-- The users. -/
def userObject : String × ObjectType := ("User", ⟨[userNext], ["Node"]⟩)

/-- The schema of the text. -/
def nodeCatalogue : Catalogue where
  types := builtinScalars.map (⟨·, .scalar⟩) ++
    [⟨"Node", .interface [nodeNext]⟩, ⟨"User", .object userObject.2⟩,
      ⟨"Query", .object ⟨[⟨"a", .named "User", []⟩], []⟩⟩]
  roots := ⟨some "Query", none, none⟩

theorem load_nodeText : Catalogue.load nodeText = .ok nodeCatalogue := by
  have heval : (Catalogue.load nodeText).toOption = some nodeCatalogue := by decide +kernel
  exact toOption_eq_some_iff.mp heval

theorem userObject_mem : userObject ∈ nodeCatalogue.objects := by decide

theorem extendedInterfaces_userObject :
    Project.extendedInterfaces ⟨nodeCatalogue, .default⟩ userObject.2 = [("Node", [nodeNext])] := by
  decide

theorem implementsValidly_nodeCatalogue :
    nodeCatalogue.ImplementsValidly (Document.parse nodeText).document.definitions := by
  have hobjects : nodeCatalogue.objects =
      [userObject, ("Query", ⟨[⟨"a", .named "User", []⟩], []⟩)] := by decide
  have huser : "Node" ∈
      Definitions.implemented (Document.parse nodeText).document.definitions "User" := by
    decide +kernel
  have hnode :
      Definitions.implemented (Document.parse nodeText).document.definitions "Node" = [] := by
    decide +kernel
  have hinterfaces : nodeCatalogue.interfaces = [("Node", [nodeNext])] := by decide
  have hfield : nodeCatalogue.FieldImplements (Document.parse nodeText).document.definitions
      userNext nodeNext := ⟨rfl, .named (.implements huser), nofun, nofun⟩
  constructor
  · rw [hobjects]
    simp [userObject, hnode]
  · rw [hobjects, hinterfaces]
    simpa [userObject] using hfield

theorem exists_declarations_nodeCatalogue :
    ∃ set, (⟨nodeCatalogue, .default⟩ : Project).declarations = .ok set := by
  have heval : (⟨nodeCatalogue, .default⟩ : Project).declarations.toOption.isSome = true := by
    decide +kernel
  obtain ⟨set, hset⟩ := Option.isSome_iff_exists.mp heval
  exact ⟨set, toOption_eq_some_iff.mp hset⟩

/-- The signature for a user takes what the field of the user takes, since nodes promise the same. -/
theorem Catalogue.signatures_of_load_nodeText :
    ∃ set, (⟨nodeCatalogue, .default⟩ : Project).declarations = .ok set ∧
      ∃ h, .handler h ∈ set.declarations ∧ h.name = "UserResolvers" ∧
        ∃ a, set.Gives h a ∧ a.name = "next" ∧ a.isSubscription = false ∧
          set.ListsArguments ⟨nodeCatalogue, .default⟩ userNext a.args := by
  obtain ⟨set, hset⟩ := exists_declarations_nodeCatalogue
  obtain ⟨⟨h, hh, hname, a, ha, hfield⟩, hall⟩ := signatures_of_load load_nodeText
    implementsValidly_nodeCatalogue .default hset userObject_mem (List.mem_singleton_self userNext)
  obtain ⟨-, -, -, -, harguments, hkind⟩ := hall h hh hname a ha hfield
  refine ⟨set, hset, h, hh, hname, a, ha, hfield, hkind (by decide), harguments ?_⟩
  intro i hi g hg _
  rw [extendedInterfaces_userObject] at hi
  obtain rfl := List.mem_singleton.mp hi
  obtain rfl := List.mem_singleton.mp hg
  rfl

/-- Taking a signature over is not the same as declaring it: what comes after a user is a user, but the
signature that is taken over has any node. -/
theorem Catalogue.signatures_of_load_not_own :
    ¬ ∀ (text : String) (c : Catalogue) (overrides : Overrides) (set : DeclarationSet),
      load text = .ok c → c.ImplementsValidly (Document.parse text).document.definitions →
      (⟨c, overrides⟩ : Project).declarations = .ok set →
      ∀ o ∈ c.objects, ∀ f ∈ o.2.fields, ∀ h, .handler h ∈ set.declarations →
        h.name = resolversName o.1 → ∀ a, set.Gives h a → a.name = f.name →
          set.IsSignature ⟨c, overrides⟩ (Project.mapComposite ⟨c, overrides⟩ o.1) f a ∧
            a.isSubscription = c.roots.isSubscription o.1 := by
  intro hall
  obtain ⟨set, hset⟩ := exists_declarations_nodeCatalogue
  obtain ⟨s, hs⟩ := Project.declarations_eq_ok hset
  have hc := load_wellNamed load_nodeText
  have hextended : ("Node", [nodeNext]) ∈
      Project.extendedInterfaces ⟨nodeCatalogue, .default⟩ userObject.2 := by
    rw [extendedInterfaces_userObject]
    exact List.mem_singleton_self _
  obtain ⟨h, hh, hname, a, ha, hnode⟩ := hs.exists_gives_of_extended hc
    (Project.mem_declaredObjects hc userObject_mem) hextended (List.mem_singleton_self nodeNext)
  obtain ⟨huser, -⟩ := hall nodeText nodeCatalogue .default set load_nodeText
    implementsValidly_nodeCatalogue hset userObject userObject_mem userNext
    (List.mem_singleton_self userNext) h hh hname a ha hnode.name
  -- The result would be that of both fields, but theirs are written differently.
  have htexts := congrArg (fun t => t.toOption.map TypeExpr.render)
    (hnode.result.trans huser.result.symm)
  exact absurd htexts (by decide)

end ResolverContracts
