import SourceLoader.Text.Basic

/-!
The sources known so far, by source unit name. A name keeps the place of its first write and the
text of its last one.
-/

namespace SourceLoader

structure Registry where
  entries : List (Text × Text)
  deriving DecidableEq

namespace Registry

def empty : Registry := ⟨[]⟩

/-- The entries with `text` stored under `name`, in its place or at the end. -/
def insertEntry (name text : Text) : List (Text × Text) → List (Text × Text)
  | [] => [(name, text)]
  | e :: rest => if e.1 = name then (name, text) :: rest else e :: insertEntry name text rest

def set (r : Registry) (name text : Text) : Registry := ⟨insertEntry name text r.entries⟩

def ofList (pairs : List (Text × Text)) : Registry :=
  pairs.foldl (fun r p => r.set p.1 p.2) empty

def get? (r : Registry) (name : Text) : Option Text := r.entries.lookup name

def contains (r : Registry) (name : Text) : Bool := (r.get? name).isSome

def size (r : Registry) : Nat := r.entries.length

/-- The names, in order of their first write. -/
def names (r : Registry) : List Text := r.entries.map Prod.fst

def toList (r : Registry) : List (Text × Text) := r.entries

theorem lookup_insertEntry (name text other : Text) (entries : List (Text × Text)) :
    (insertEntry name text entries).lookup other =
      if other = name then some text else entries.lookup other := by
  induction entries with
  | nil => by_cases h : other = name <;> simp [insertEntry, List.lookup_cons, h, beq_false_of_ne]
  | cons e entries ih =>
    obtain ⟨key, value⟩ := e
    by_cases h : key = name
    · subst h
      by_cases ho : other = key
      · simp [insertEntry, ho]
      · simp [insertEntry, List.lookup_cons, ho, beq_false_of_ne ho]
    · by_cases ho : other = key
      · subst ho
        simp [insertEntry, h]
      · simpa [insertEntry, List.lookup_cons, h, beq_false_of_ne ho] using ih

theorem map_fst_insertEntry (name text : Text) (entries : List (Text × Text)) :
    (insertEntry name text entries).map Prod.fst =
      if name ∈ entries.map Prod.fst then entries.map Prod.fst
      else entries.map Prod.fst ++ [name] := by
  induction entries with
  | nil => simp [insertEntry]
  | cons e entries ih =>
    by_cases h : e.1 = name
    · simp [insertEntry, h]
    · have h' : name ≠ e.1 := Ne.symm h
      by_cases hm : name ∈ entries.map Prod.fst <;> simp_all [insertEntry]

theorem get?_set (r : Registry) (name text other : Text) :
    (r.set name text).get? other = if other = name then some text else r.get? other :=
  lookup_insertEntry name text other r.entries

theorem names_set (r : Registry) (name text : Text) :
    (r.set name text).names = if name ∈ r.names then r.names else r.names ++ [name] :=
  map_fst_insertEntry name text r.entries

@[simp] theorem length_names (r : Registry) : r.names.length = r.size := by
  simp [names, size]

end Registry

end SourceLoader
