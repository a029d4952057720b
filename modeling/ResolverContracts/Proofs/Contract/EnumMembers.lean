import Mathlib.Data.List.Nodup
import ResolverContracts.Contract.Synthesis
import ResolverContracts.Proofs.Contract.Successes
import ResolverContracts.Proofs.Text.ScreamingSnake
/-!
# The members of an enum

The values of an enum get their members one after the other, each behind those of the values in front.
While the identifiers differ this gives one member for each value; it stops at the first value whose
identifier is already there (`enumMembersAfter_cases`). That value and the one in front with its
identifier are the first collision there is: in front of it no two values collide.
-/

set_option autoImplicit false

namespace ResolverContracts

/-- The member for a value. -/
def EnumMember.ofValue (value : String) : EnumMember := ⟨pascalCase value, value⟩

@[simp] theorem EnumMember.identifier_ofValue (value : String) :
    (EnumMember.ofValue value).identifier = pascalCase value := rfl

@[simp] theorem EnumMember.value_ofValue (value : String) :
    (EnumMember.ofValue value).value = value := rfl

/-- Two values of an enum, at different places, that get the same identifier. -/
structure CollideAt (values : List String) (i j : Nat) (first second : String) : Prop where
  lt : i < j
  getElem?_first : values[i]? = some first
  getElem?_second : values[j]? = some second
  identifier : pascalCase first = pascalCase second

section Collisions

variable {values : List String} {i j : Nat} {v w : String}

/-- Identifiers differ if no values collide. -/
theorem nodup_map_pascalCase_iff :
    (values.map pascalCase).Nodup ↔ ∀ i j v w, ¬CollideAt values i j v w := by
  rw [List.nodup_iff_getElem?_ne_getElem?]
  constructor
  · rintro h i j v w ⟨hlt, hv, hw, hsame⟩
    have hj : j < (values.map pascalCase).length := by
      rw [List.length_map]
      exact (List.getElem?_eq_some_iff.mp hw).1
    refine h i j hlt hj ?_
    rw [List.getElem?_map, List.getElem?_map, hv, hw, Option.map_some, Option.map_some, hsame]
  · intro h i j hlt hj hsame
    rw [List.length_map] at hj
    have hi : i < values.length := Nat.lt_trans hlt hj
    rw [List.getElem?_map, List.getElem?_map, List.getElem?_eq_getElem hi,
      List.getElem?_eq_getElem hj] at hsame
    exact h i j values[i] values[j] ⟨hlt, List.getElem?_eq_getElem hi, List.getElem?_eq_getElem hj,
      Option.some.inj hsame⟩

/-- A collision in front of a place does not depend on what comes behind it. -/
theorem CollideAt.of_append {earlier later : List String} (h : CollideAt (earlier ++ later) i j v w)
    (hj : j < earlier.length) : CollideAt earlier i j v w := by
  refine ⟨h.lt, ?_, ?_, h.identifier⟩
  · rw [← h.getElem?_first, List.getElem?_append_left (Nat.lt_trans h.lt hj)]
  · rw [← h.getElem?_second, List.getElem?_append_left hj]

/-- Where identifiers differ, a value has its identifier for itself. -/
theorem eq_of_getElem?_of_nodup (h : (values.map pascalCase).Nodup) (hv : values[i]? = some v)
    (hw : values[j]? = some w) (hsame : pascalCase v = pascalCase w) : i = j := by
  rw [nodup_map_pascalCase_iff] at h
  rcases Nat.lt_trichotomy i j with hlt | heq | hlt
  · exact absurd ⟨hlt, hv, hw, hsame⟩ (h i j v w)
  · exact heq
  · exact absurd ⟨hlt, hw, hv, hsame.symm⟩ (h j i w v)

/-- A value that collides with one in front of it, where those in front do not collide, is the first
to collide, and it does so with no other in front. -/
theorem exists_first_collision {earlier later : List String} {first second : String}
    (hnodup : (earlier.map pascalCase).Nodup) (hfirst : first ∈ earlier)
    (hsame : pascalCase first = pascalCase second) :
    ∃ i j, CollideAt (earlier ++ second :: later) i j first second ∧
      ∀ k l v w, CollideAt (earlier ++ second :: later) k l v w → j < l ∨ (j = l ∧ i = k) := by
  obtain ⟨i, hi⟩ := List.mem_iff_getElem?.mp hfirst
  have hlt : i < earlier.length := (List.getElem?_eq_some_iff.mp hi).1
  have hsecond : (earlier ++ second :: later)[earlier.length]? = some second := by simp
  refine ⟨i, earlier.length,
    ⟨hlt, by rw [List.getElem?_append_left hlt, hi], hsecond, hsame⟩, fun k l v w h => ?_⟩
  rcases Nat.lt_trichotomy earlier.length l with hl | rfl | hl
  · exact .inl hl
  · obtain rfl : second = w := Option.some.inj (hsecond.symm.trans h.getElem?_second)
    have hv : earlier[k]? = some v := by rw [← h.getElem?_first, List.getElem?_append_left h.lt]
    exact .inr ⟨rfl, eq_of_getElem?_of_nodup hnodup hi hv (hsame.trans h.identifier.symm)⟩
  · exact absurd (h.of_append hl) (nodup_map_pascalCase_iff.mp hnodup k l v w)

end Collisions

/-! ## The walk -/

namespace Project

/-- **One member for each value, or the first collision.** The induction is on the values to come;
those in front have their members already, with identifiers that differ. -/
theorem enumMembersAfter_cases (enum : String) (values : List String) {before : List String}
    (hbefore : (before.map pascalCase).Nodup) :
    (((before ++ values).map pascalCase).Nodup ∧
      enumMembersAfter enum (before.map .ofValue) values =
        .ok ((before ++ values).map .ofValue)) ∨
    ∃ earlier second later first, values = earlier ++ second :: later ∧
      ((before ++ earlier).map pascalCase).Nodup ∧ first ∈ before ++ earlier ∧
      pascalCase first = pascalCase second ∧
      enumMembersAfter enum (before.map .ofValue) values =
        .error (.enumCollision enum (pascalCase second) first second) := by
  induction values generalizing before with
  | nil =>
    rw [List.append_nil]
    exact .inl ⟨hbefore, rfl⟩
  | cons value values ih =>
    rw [enumMembersAfter]
    cases hfind : (before.map EnumMember.ofValue).find? (·.identifier == pascalCase value) with
    | some member =>
      obtain ⟨first, hfirst, rfl⟩ := List.mem_map.mp (List.mem_of_find?_eq_some hfind)
      have hsame : pascalCase first = pascalCase value := by
        simpa using List.find?_some hfind
      refine .inr ⟨[], value, values, first, rfl, ?_, ?_, hsame, rfl⟩
      · rwa [List.append_nil]
      · rwa [List.append_nil]
    | none =>
      -- The identifier is new, so the value can join those in front.
      have hnew : ∀ v ∈ before, pascalCase v ≠ pascalCase value := by
        simpa using hfind
      have hnext : ((before ++ [value]).map pascalCase).Nodup := by
        rw [List.map_append, List.map_singleton, ← List.concat_eq_append]
        refine hbefore.concat fun hmem => ?_
        obtain ⟨v, hv, hsame⟩ := List.mem_map.mp hmem
        exact hnew v hv hsame
      have happend : before.map EnumMember.ofValue ++ [⟨pascalCase value, value⟩] =
          (before ++ [value]).map .ofValue := by
        rw [List.map_append]
        rfl
      simp only [happend]
      rcases ih hnext with
        ⟨hnodup, hok⟩ | ⟨earlier, second, later, first, rfl, hnodup, hfirst, hsame, herror⟩
      · rw [List.append_assoc, List.singleton_append] at hnodup hok
        exact .inl ⟨hnodup, hok⟩
      · rw [List.append_assoc, List.singleton_append] at hnodup hfirst
        exact .inr ⟨value :: earlier, second, later, first, rfl, hnodup, hfirst, hsame, herror⟩

variable {p : Project} {name : String}

/-- An enum is declared by its values, or its first collision is reported. -/
theorem enumDeclaration_cases_of_not_replaced (values : List String)
    (h : p.overrides.enumValues.get? name = none) :
    ((values.map pascalCase).Nodup ∧
      p.enumDeclaration name values = .ok (.enum name (values.map .ofValue))) ∨
    ∃ i j first second, CollideAt values i j first second ∧
      (∀ k l v w, CollideAt values k l v w → j < l ∨ (j = l ∧ i = k)) ∧
      p.enumDeclaration name values =
        .error (.enumCollision name (pascalCase second) first second) := by
  have hwalk : p.enumDeclaration name values =
      (enumMembersAfter name [] values).map (.enum name) := by
    rw [enumDeclaration, h]
  rw [hwalk]
  have hnothing : (([] : List String).map pascalCase).Nodup := List.nodup_nil
  rcases enumMembersAfter_cases name values hnothing with
    ⟨hnodup, hok⟩ | ⟨earlier, second, later, first, rfl, hnodup, hfirst, hsame, herror⟩
  · rw [List.map_nil, List.nil_append] at hok
    rw [hok]
    exact .inl ⟨hnodup, rfl⟩
  · rw [List.map_nil] at herror
    rw [herror]
    obtain ⟨i, j, hcollide, hleast⟩ := exists_first_collision hnodup hfirst hsame
    exact .inr ⟨i, j, first, second, hcollide, hleast, rfl⟩

/-- An enum that the user does not replace fails to be declared exactly if two of its values collide,
and then the earliest value that collides is reported, with the one in front it collides with. Without
a collision it has one member for each value, in order, under identifiers that differ. Different values
in capitals never collide. -/
theorem enumDeclaration_collision_or_members (values : List String)
    (h : p.overrides.enumValues.get? name = none) :
    ((∃ e, p.enumDeclaration name values = .error e) ↔
      ∃ i j first second, CollideAt values i j first second) ∧
    (∀ e, p.enumDeclaration name values = .error e →
      ∃ i j first second, e = .enumCollision name (pascalCase second) first second ∧
        CollideAt values i j first second ∧
        ∀ k l v w, CollideAt values k l v w → j < l ∨ (j = l ∧ i = k)) ∧
    ((¬∃ i j first second, CollideAt values i j first second) →
      p.enumDeclaration name values = .ok (.enum name (values.map .ofValue)) ∧
      ((values.map EnumMember.ofValue).map (·.identifier)).Nodup ∧
      (values.map EnumMember.ofValue).map (·.value) = values) ∧
    (values.Nodup → (∀ v ∈ values, ScreamingSnake v) →
      ∃ d, p.enumDeclaration name values = .ok d) ∧
    ∀ v w, ScreamingSnake v → ScreamingSnake w → pascalCase v = pascalCase w → v = w := by
  have hnames : (values.map EnumMember.ofValue).map (·.identifier) = values.map pascalCase := by
    rw [List.map_map]
    rfl
  have hvalues : (values.map EnumMember.ofValue).map (·.value) = values := by
    rw [List.map_map]
    exact List.map_id values
  -- That screaming snake values never collide needs nothing of the enum.
  have hinjective : ∀ v w, ScreamingSnake v → ScreamingSnake w → pascalCase v = pascalCase w →
      v = w := fun v w hv hw => hv.eq_of_pascalCase_eq hw
  rw [hnames, hvalues]
  rcases enumDeclaration_cases_of_not_replaced values h with
    ⟨hnodup, hok⟩ | ⟨i, j, first, second, hcollide, hleast, herror⟩
  · have hnone : ¬∃ i j first second, CollideAt values i j first second := by
      rintro ⟨i, j, first, second, hcollide⟩
      exact nodup_map_pascalCase_iff.mp hnodup i j first second hcollide
    rw [hok]
    refine ⟨iff_of_false nofun hnone, nofun, fun _ => ⟨rfl, hnodup, rfl⟩, fun _ _ => ⟨_, rfl⟩,
      hinjective⟩
  · have hsome : ∃ i j first second, CollideAt values i j first second :=
      ⟨i, j, first, second, hcollide⟩
    rw [herror]
    refine ⟨iff_of_true ⟨_, rfl⟩ hsome, ?_, fun hnone => absurd hsome hnone, ?_, hinjective⟩
    · intro e he
      obtain rfl := Except.error.inj he
      exact ⟨i, j, first, second, rfl, hcollide, hleast⟩
    · -- Values in capitals that differ keep identifiers that differ.
      intro hdistinct hsnake
      have hnodup : (values.map pascalCase).Nodup :=
        hdistinct.map_on fun v hv w hw => hinjective v w (hsnake v hv) (hsnake w hw)
      exact absurd hcollide (nodup_map_pascalCase_iff.mp hnodup i j first second)

/-- `V1_2` and `V12` are kept apart, but a `v12` collides with the second of them. -/
theorem enumDeclaration_versions :
    Overrides.default.enumValues.get? "Version" = none ∧
    (∃ d, (⟨.initial, .default⟩ : Project).enumDeclaration "Version" ["V1_2", "V12"] = .ok d) ∧
    ∃ e, (⟨.initial, .default⟩ : Project).enumDeclaration "Version" ["V1_2", "V12", "v12"] =
      .error e := by
  have hnone : Overrides.default.enumValues.get? "Version" = none := rfl
  have hparted : ScreamingSnake "V1_2" := by
    refine ⟨['V', '1'], [['2']], ⟨['V'], ['1'], rfl, List.cons_ne_nil _ _, ?_, ?_⟩, ?_, rfl⟩
    · exact List.forall_mem_singleton.mpr rfl
    · exact List.forall_mem_singleton.mpr rfl
    · exact List.forall_mem_singleton.mpr
        (.inr ⟨List.cons_ne_nil _ _, List.forall_mem_singleton.mpr rfl⟩)
  have hwhole : ScreamingSnake "V12" := by
    refine ⟨['V', '1', '2'], [], ⟨['V'], ['1', '2'], rfl, List.cons_ne_nil _ _, ?_, ?_⟩, nofun, rfl⟩
    · exact List.forall_mem_singleton.mpr rfl
    · exact List.forall_mem_cons.mpr ⟨rfl, List.forall_mem_singleton.mpr rfl⟩
  have hsnake : ∀ v ∈ ["V1_2", "V12"], ScreamingSnake v :=
    List.forall_mem_cons.mpr ⟨hparted, List.forall_mem_singleton.mpr hwhole⟩
  obtain ⟨-, -, -, hok, -⟩ := enumDeclaration_collision_or_members (p := ⟨.initial, .default⟩)
    ["V1_2", "V12"] hnone
  obtain ⟨hfails, -⟩ := enumDeclaration_collision_or_members (p := ⟨.initial, .default⟩)
    ["V1_2", "V12", "v12"] hnone
  have hcollide : CollideAt ["V1_2", "V12", "v12"] 1 2 "V12" "v12" :=
    ⟨by decide, rfl, rfl, by decide +kernel⟩
  exact ⟨hnone, hok (by decide) hsnake, hfails.mpr ⟨1, 2, "V12", "v12", hcollide⟩⟩

end Project

end ResolverContracts
