import Mathlib.Data.List.GetD
import Mathlib.Data.List.Induction
import SourceLoader.Proofs.Text.Basic
import SourceLoader.Registry

/-!
A registry as a record of writes. A name is listed once, in the place of its first write, and has
the text of its last one. So the list of all writes tells everything about the registry that they
lead to.

A registry among the dictionaries of its callers. A dictionary is kept in a place, and whoever has
the place can change it. The registry has a place of its own: it takes what it is given from others
as a copy, and gives away copies only. So nobody else ever has its place, and what it holds is told
by the writes to it alone, whatever callers do to what they passed in or got.
-/

namespace SourceLoader.Registry

variable {r : Registry} {name text : Text}

/-! ### One write -/

theorem insertEntry_of_not_mem {entries : List (Text × Text)} (h : name ∉ entries.map Prod.fst) :
    insertEntry name text entries = entries ++ [(name, text)] := by
  induction entries with
  | nil => rfl
  | cons e rest ih =>
      simp only [List.map_cons, List.mem_cons, not_or] at h
      rw [insertEntry, if_neg (Ne.symm h.1), ih h.2, List.cons_append]

theorem insertEntry_of_mem {entries : List (Text × Text)} (hnodup : (entries.map Prod.fst).Nodup)
    (h : name ∈ entries.map Prod.fst) :
    insertEntry name text entries =
      entries.map fun e => if e.1 = name then (name, text) else e := by
  induction entries with
  | nil => simp at h
  | cons e rest ih =>
      obtain ⟨hnot, hnodup⟩ := List.nodup_cons.1 hnodup
      rw [insertEntry, List.map_cons]
      by_cases he : e.1 = name
      · subst he
        have hrest : (rest.map fun e' => if e'.1 = e.1 then (e.1, text) else e') = rest := by
          have hself : ∀ e' ∈ rest, (if e'.1 = e.1 then (e.1, text) else e') = e' := by
            intro e' he'
            have hne : e'.1 ≠ e.1 := fun hsame => hnot (hsame ▸ List.mem_map_of_mem he')
            rw [if_neg hne]
          rw [List.map_congr_left hself, List.map_id']
        rw [if_pos rfl, if_pos rfl, hrest]
      · have hmem : name ∈ rest.map Prod.fst := by
          simpa [Ne.symm he] using h
        rw [if_neg he, if_neg he, ih hnodup hmem]

/-- What is stored takes the place that its name has, or comes last. -/
theorem entries_set (h : r.names.Nodup) (name text : Text) :
    (r.set name text).entries =
      if name ∈ r.names then r.entries.map fun e => if e.1 = name then (name, text) else e
      else r.entries ++ [(name, text)] := by
  by_cases hmem : name ∈ r.names
  · rw [if_pos hmem]
    exact insertEntry_of_mem h hmem
  · rw [if_neg hmem]
    exact insertEntry_of_not_mem hmem

theorem nodup_set (h : r.names.Nodup) (name text : Text) : (r.set name text).names.Nodup := by
  rw [names_set]
  split
  · exact h
  · next hnew => exact List.nodup_append_comm.1 (List.nodup_cons.2 ⟨hnew, h⟩)

/-! ### Any number of writes -/

theorem ofList_concat (pairs : List (Text × Text)) (p : Text × Text) :
    ofList (pairs ++ [p]) = (ofList pairs).set p.1 p.2 := by
  rw [ofList, List.foldl_append]
  rfl

theorem nodup_ofList (pairs : List (Text × Text)) : (ofList pairs).names.Nodup := by
  induction pairs using List.reverseRecOn with
  | nil => exact .nil
  | append_singleton pairs p ih =>
      rw [ofList_concat]
      exact nodup_set ih p.1 p.2

theorem eraseDups_concat (names : List Text) (name : Text) :
    (names ++ [name]).eraseDups =
      if name ∈ names then names.eraseDups else names.eraseDups ++ [name] := by
  rw [List.eraseDups_append]
  by_cases hmem : name ∈ names <;> simp [List.removeAll, hmem, List.eraseDups_cons]

theorem names_ofList (pairs : List (Text × Text)) :
    (ofList pairs).names = (pairs.map Prod.fst).eraseDups := by
  induction pairs using List.reverseRecOn with
  | nil => rfl
  | append_singleton pairs p ih =>
      rw [ofList_concat, names_set, ih, List.map_append]
      simp only [List.map_cons, List.map_nil, eraseDups_concat, List.mem_eraseDups]

theorem get?_ofList (pairs : List (Text × Text)) (name : Text) :
    (ofList pairs).get? name = pairs.reverse.lookup name := by
  induction pairs using List.reverseRecOn with
  | nil => rfl
  | append_singleton pairs p ih =>
      rw [ofList_concat, get?_set, ih, List.reverse_concat, List.lookup_cons]
      by_cases h : name = p.1 <;> simp [h, beq_false_of_ne]

theorem mem_names_iff : name ∈ r.names ↔ (r.get? name).isSome = true := by
  simp only [names, get?, List.lookup_isSome_iff, List.mem_map, beq_iff_eq]
  exact exists_congr fun e => and_congr_right fun _ => eq_comm

theorem toList_eq (h : r.names.Nodup) :
    r.toList = r.names.filterMap fun name => (r.get? name).map (name, ·) :=
  (Text.filterMap_lookup h).symm

theorem ofList_toList (h : r.names.Nodup) : ofList r.toList = r := by
  obtain ⟨entries⟩ := r
  simp only [toList]
  induction entries using List.reverseRecOn with
  | nil => rfl
  | append_singleton entries e ih =>
      rw [names, List.map_append, List.nodup_append_comm] at h
      obtain ⟨hnew, hnodup⟩ := List.nodup_cons.1 h
      rw [ofList_concat, ih hnodup, set, insertEntry_of_not_mem hnew]

end SourceLoader.Registry

/-! ## Holdings -/

namespace SourceLoader

/-- The dictionaries there are, with the places of those that the registry and its callers have. -/
structure Holdings where
  kept : List Registry
  own : Nat
  /-- What callers have, in the order in which they got it. -/
  lent : List Nat

namespace Holdings

/-! ### Steps -/

/-- What callers do with dictionaries and with the registry. They name a dictionary by when they got
it. -/
inductive Use
  | make (pairs : List (Text × Text))
  | change (i : Nat) (f : Registry → Registry)
  | set (name text : Text)
  | replaceAll (i : Nat)
  | copyOut

def look (s : Holdings) (place : Nat) : Registry := s.kept.getD place .empty

def registry (s : Holdings) : Registry := s.look s.own

def put (s : Holdings) (place : Nat) (dictionary : Registry) : Holdings :=
  { s with kept := s.kept.set place dictionary }

def lend (s : Holdings) (dictionary : Registry) : Holdings :=
  { s with kept := s.kept ++ [dictionary], lent := s.lent ++ [s.kept.length] }

def adopt (s : Holdings) (dictionary : Registry) : Holdings :=
  { s with kept := s.kept ++ [dictionary], own := s.kept.length }

def copy (dictionary : Registry) : Registry := .ofList dictionary.toList

def got? (s : Holdings) : Option Registry := s.lent.getLast?.map s.look

/-- A registry that is set up with the entries of a dictionary of a caller, or with none. -/
def start : Option (List (Text × Text)) → Holdings
  | none => adopt ⟨[], 0, []⟩ .empty
  | some pairs => (lend ⟨[], 0, []⟩ (.ofList pairs)).adopt (copy (.ofList pairs))

def next (s : Holdings) : Use → Holdings
  | .make pairs => s.lend (.ofList pairs)
  | .change i f =>
    match s.lent[i]? with
    | some place => s.put place (f (s.look place))
    | none => s
  | .set name text => s.put s.own (s.registry.set name text)
  | .replaceAll i =>
    match s.lent[i]? with
    | some place => s.adopt (copy (s.look place))
    | none => s
  | .copyOut => s.lend (copy s.registry)

def after (s : Holdings) (uses : List Use) : Holdings := uses.foldl next s

/-- What has been written to the registry since its entries were last replaced, if it was `before`
up to now. -/
def wrote (s : Holdings) (before : List (Text × Text)) : Use → List (Text × Text)
  | .set name text => before ++ [(name, text)]
  | .replaceAll i =>
    match s.lent[i]? with
    | some place => (s.look place).toList
    | none => before
  | .make _ | .change _ _ | .copyOut => before

def writes (s : Holdings) (before : List (Text × Text)) : List Use → List (Text × Text)
  | [] => before
  | use :: rest => (s.next use).writes (s.wrote before use) rest

/-! ### Places -/

variable {s : Holdings} {place : Nat} {dictionary : Registry} {before : List (Text × Text)}

/-- Whether nobody else has the place of the registry. -/
structure Apart (s : Holdings) : Prop where
  own_lt : s.own < s.kept.length
  lent_lt : ∀ place ∈ s.lent, place < s.kept.length
  own_not_mem : s.own ∉ s.lent

theorem registry_lend (h : s.Apart) (dictionary : Registry) :
    (s.lend dictionary).registry = s.registry :=
  List.getD_append _ _ _ _ h.own_lt

theorem got?_lend (s : Holdings) (dictionary : Registry) :
    (s.lend dictionary).got? = some dictionary := by
  simp [got?, lend, look]

theorem registry_adopt (s : Holdings) (dictionary : Registry) :
    (s.adopt dictionary).registry = dictionary := by
  simp [registry, look, adopt]

theorem registry_put_own (h : s.Apart) (dictionary : Registry) :
    (s.put s.own dictionary).registry = dictionary := by
  simp [registry, look, put, h.own_lt]

theorem registry_put_of_ne (h : place ≠ s.own) (dictionary : Registry) :
    (s.put place dictionary).registry = s.registry := by
  simp [registry, look, put, List.getD_eq_getElem?_getD, h]

theorem Apart.lend (h : s.Apart) (dictionary : Registry) : (s.lend dictionary).Apart := by
  have hlength : (s.lend dictionary).kept.length = s.kept.length + 1 := by simp [Holdings.lend]
  have hown := h.own_lt
  refine ⟨?_, fun place hplace => ?_, fun hmem => ?_⟩
  · rw [hlength]
    exact Nat.lt_succ_of_lt hown
  · rw [hlength]
    rcases List.mem_append.1 hplace with hold | hnew
    · exact Nat.lt_succ_of_lt (h.lent_lt place hold)
    · obtain rfl := List.mem_singleton.1 hnew
      exact Nat.lt_succ_self _
  · rcases List.mem_append.1 hmem with hold | hnew
    · exact h.own_not_mem hold
    · exact absurd (List.mem_singleton.1 hnew) (Nat.ne_of_lt hown)

theorem Apart.put (h : s.Apart) (place : Nat) (dictionary : Registry) :
    (s.put place dictionary).Apart := by
  have hlength : (s.put place dictionary).kept.length = s.kept.length := by simp [Holdings.put]
  exact ⟨hlength ▸ h.own_lt, fun p hp => hlength ▸ h.lent_lt p hp, h.own_not_mem⟩

theorem apart_adopt (h : ∀ place ∈ s.lent, place < s.kept.length) (dictionary : Registry) :
    (s.adopt dictionary).Apart := by
  have hlength : (s.adopt dictionary).kept.length = s.kept.length + 1 := by simp [adopt]
  refine ⟨?_, fun place hplace => ?_, fun hmem => ?_⟩
  · rw [hlength]
    exact Nat.lt_succ_self _
  · rw [hlength]
    exact Nat.lt_succ_of_lt (h place hplace)
  · exact absurd (h _ hmem) (Nat.lt_irrefl _)

theorem apart_start (sources : Option (List (Text × Text))) : (start sources).Apart := by
  cases sources with
  | none => exact apart_adopt (by simp) .empty
  | some pairs => exact apart_adopt (by simp [lend]) _

theorem Apart.next (h : s.Apart) (use : Use) : (s.next use).Apart := by
  cases use with
  | make pairs => exact h.lend _
  | set name text => exact h.put _ _
  | copyOut => exact h.lend _
  | change i f =>
      simp only [Holdings.next]
      split
      · exact h.put _ _
      · exact h
  | replaceAll i =>
      simp only [Holdings.next]
      split
      · exact apart_adopt h.lent_lt _
      · exact h

theorem Apart.registry_change (h : s.Apart) (i : Nat) (f : Registry → Registry) :
    (s.next (.change i f)).registry = s.registry := by
  simp only [Holdings.next]
  split
  · next place hplace =>
    have hmem := List.mem_of_getElem? hplace
    exact registry_put_of_ne (fun hown => h.own_not_mem (hown ▸ hmem)) _
  · rfl

/-! ### Writes -/

/-- A step does to the registry what it writes. -/
theorem Apart.registry_next (h : s.Apart) (hwritten : s.registry = .ofList before) (use : Use) :
    (s.next use).registry = .ofList (s.wrote before use) := by
  cases use with
  | make pairs => exact (registry_lend h _).trans hwritten
  | copyOut => exact (registry_lend h _).trans hwritten
  | change i f => exact (h.registry_change i f).trans hwritten
  | set name text =>
      rw [Holdings.next, registry_put_own h, wrote, Registry.ofList_concat, hwritten]
  | replaceAll i =>
      simp only [Holdings.next, wrote]
      split
      · exact registry_adopt s _
      · exact hwritten

theorem Apart.after (h : s.Apart) (uses : List Use) : (s.after uses).Apart := by
  induction uses generalizing s with
  | nil => exact h
  | cons use rest ih => exact ih (h.next use)

theorem Apart.registry_after (h : s.Apart) (hwritten : s.registry = .ofList before)
    (uses : List Use) : (s.after uses).registry = .ofList (s.writes before uses) := by
  induction uses generalizing s before with
  | nil => exact hwritten
  | cons use rest ih => exact ih (h.next use) (h.registry_next hwritten use)

theorem registry_start (sources : Option (List (Text × Text))) :
    (start sources).registry = .ofList (sources.getD []) := by
  cases sources with
  | none => exact registry_adopt _ _
  | some pairs =>
      exact (registry_adopt _ _).trans (Registry.ofList_toList (Registry.nodup_ofList pairs))

/-- Whether a registry is the map that some writes lead to, in the order of first writes. -/
structure Follows (r : Registry) (writes : List (Text × Text)) : Prop where
  names_eq : r.names = (writes.map Prod.fst).eraseDups
  nodup : r.names.Nodup
  get?_eq : ∀ name, r.get? name = writes.reverse.lookup name
  contains_iff : ∀ name, r.contains name = true ↔ name ∈ r.names
  isSome_iff : ∀ name, (r.get? name).isSome = true ↔ name ∈ r.names
  size_eq : r.size = r.names.length
  toList_eq : r.toList = r.names.filterMap fun name => (r.get? name).map (name, ·)

theorem follows_ofList (pairs : List (Text × Text)) : Follows (.ofList pairs) pairs where
  names_eq := Registry.names_ofList pairs
  nodup := Registry.nodup_ofList pairs
  get?_eq := Registry.get?_ofList pairs
  contains_iff _ := Registry.mem_names_iff.symm
  isSome_iff _ := Registry.mem_names_iff.symm
  size_eq := (Registry.length_names _).symm
  toList_eq := Registry.toList_eq (Registry.nodup_ofList pairs)

/-- After any steps the registry is the map that the writes since the last replacement lead to. What
callers then get is equal to it, and no change that they make to what they have touches it. -/
theorem follows_after (sources : Option (List (Text × Text))) (uses : List Use) :
    Follows ((start sources).after uses).registry ((start sources).writes (sources.getD []) uses) ∧
      (((start sources).after uses).next .copyOut).got? =
        some ((start sources).after uses).registry ∧
      ∀ i f, (((start sources).after uses).next (.change i f)).registry =
        ((start sources).after uses).registry := by
  have hapart := (apart_start sources).after uses
  have hregistry := (apart_start sources).registry_after (registry_start sources) uses
  have hfollows := hregistry ▸ follows_ofList ((start sources).writes (sources.getD []) uses)
  refine ⟨hfollows, ?_, hapart.registry_change⟩
  rw [next, got?_lend, copy, Registry.ofList_toList hfollows.nodup]

-- The caller changes what it passed in, and then the copy that it got.
example :
    ((start (some [(['a'], ['1']), (['b'], ['2'])])).after
        [.change 0 (·.set ['a'] ['x']), .set ['c'] ['3'], .set ['a'] ['4'], .copyOut,
          .change 1 (·.set ['d'] ['y'])]).registry.toList =
      [(['a'], ['4']), (['b'], ['2']), (['c'], ['3'])] := by
  decide

end Holdings

end SourceLoader
