/-!
# Entries

Keys with values, as a list in the order in which the keys came first. A key that is given a value
again keeps its place and gets the new value.
-/

set_option autoImplicit false

namespace ResolverContracts.Entries

variable {α β : Type} [BEq α]

/-- The value of a key. -/
def get? (key : α) (entries : List (α × β)) : Option β :=
  (entries.find? (·.1 == key)).map (·.2)

/-- Puts a value where its key is, or at the end. -/
def put (key : α) (value : β) : List (α × β) → List (α × β)
  | [] => [(key, value)]
  | e :: es => if e.1 == key then (key, value) :: es else e :: put key value es

theorem get?_cons (key : α) (e : α × β) (entries : List (α × β)) :
    get? key (e :: entries) = if e.1 == key then some e.2 else get? key entries := by
  unfold get?
  rw [List.find?_cons]
  by_cases h : (e.1 == key) = true <;> simp [h]

variable [LawfulBEq α]

/-- A key has the value it was last given. -/
theorem get?_put_self (key : α) (value : β) (entries : List (α × β)) :
    get? key (put key value entries) = some value := by
  induction entries with
  | nil => simp [put, get?_cons]
  | cons e es ih =>
    unfold put
    split
    · simp [get?_cons]
    · next h => rw [get?_cons, if_neg h, ih]

/-- Other keys keep their values. -/
theorem get?_put_of_ne {key other : α} (value : β) (entries : List (α × β)) (hne : key ≠ other) :
    get? other (put key value entries) = get? other entries := by
  induction entries with
  | nil => simp [put, get?, hne]
  | cons e es ih =>
    unfold put
    split
    · next h =>
      have he : e.1 = key := by simpa using h
      rw [get?_cons, get?_cons, if_neg (by simpa using hne), if_neg (by simpa [he] using hne)]
    · rw [get?_cons, get?_cons, ih]

/-- The keys after a value is put: the same, or one more at the end. -/
theorem map_fst_put (key : α) (value : β) (entries : List (α × β)) :
    (put key value entries).map (·.1) =
      if (entries.map (·.1)).contains key then entries.map (·.1)
      else entries.map (·.1) ++ [key] := by
  induction entries with
  | nil => simp [put]
  | cons e es ih =>
    unfold put
    by_cases h : (e.1 == key) = true
    · have he : e.1 = key := by simpa using h
      simp [he]
    · have hk : (key == e.1) = false := by
        rw [beq_eq_false_iff_ne]
        exact fun hk => h (by simp [hk])
      simp only [h, List.map_cons, List.contains_cons, hk, Bool.false_or, ih, Bool.false_eq_true,
        if_false]
      split <;> simp

end ResolverContracts.Entries
