import Mathlib
import SourceLoader.Json.Basic
import SourceLoader.Proofs.Text.Basic

/-!
The order of the members of objects. Members are written in increasing order of their names, so what
is written of a value is its sorted form: the same value, with the members of every object in it in
that order. Where no object has two members of one name, the names are strictly increasing, and each
still stands for the same.
-/

namespace SourceLoader.Json

/-- What holds of a list and of an object if it holds of everything in them, and of all other
values, holds of every value. -/
theorem induction {P : Json → Prop} (null : P .null) (bool : ∀ value, P (.bool value))
    (int : ∀ value, P (.int value)) (str : ∀ value, P (.str value))
    (arr : ∀ items, (∀ item ∈ items, P item) → P (.arr items))
    (obj : ∀ members, (∀ m ∈ members, P m.2) → P (.obj members)) (v : Json) : P v :=
  match v with
  | .null => null
  | .bool value => bool value
  | .int value => int value
  | .str value => str value
  | .arr items => arr items fun item _ => induction null bool int str arr obj item
  | .obj members => obj members fun m _ => induction null bool int str arr obj m.2
termination_by sizeOf v
decreasing_by
  · have hlt := List.sizeOf_lt_of_mem ‹_ ∈ _›
    simp
    omega
  · obtain ⟨name, value⟩ := m
    have hlt := List.sizeOf_lt_of_mem ‹_ ∈ _›
    simp at hlt ⊢
    omega

mutual

/-- The value with the members of every object in it in increasing order of their names. -/
def sorted : Json → Json
  | .arr items => .arr (sortedItems items)
  | .obj members => .obj (sortMembers (sortedMembers members))
  | value => value

def sortedItems : List Json → List Json
  | [] => []
  | item :: rest => sorted item :: sortedItems rest

def sortedMembers : List (Text × Json) → List (Text × Json)
  | [] => []
  | (name, value) :: rest => (name, sorted value) :: sortedMembers rest

end

/-- Whether the names in every object inside a value are as `P` says. -/
inductive Throughout (P : List Text → Prop) : Json → Prop
  | null : Throughout P .null
  | bool (value : Bool) : Throughout P (.bool value)
  | int (value : Int) : Throughout P (.int value)
  | str (value : Text) : Throughout P (.str value)
  | arr {items : List Json} (inner : ∀ item ∈ items, Throughout P item) :
      Throughout P (.arr items)
  | obj {members : List (Text × Json)} (names : P (members.map Prod.fst))
      (inner : ∀ m ∈ members, Throughout P m.2) : Throughout P (.obj members)

/-- Whether no object inside a value has two members of one name. -/
def Distinct : Json → Prop := Throughout List.Nodup

def Ordered : Json → Prop := Throughout (List.Pairwise (· < ·))

theorem sortedItems_eq (items : List Json) : sortedItems items = items.map sorted := by
  induction items with
  | nil => rfl
  | cons item items ih => rw [sortedItems, ih, List.map_cons]

theorem sortedMembers_eq (members : List (Text × Json)) :
    sortedMembers members = members.map (Prod.map id sorted) := by
  induction members with
  | nil => rfl
  | cons m members ih => rw [sortedMembers, ih, List.map_cons, Prod.map, id]

theorem renderItems_eq (items : List Json) : renderItems items = items.map render := by
  induction items with
  | nil => rfl
  | cons item items ih => rw [renderItems, ih, List.map_cons]

theorem renderMembers_eq (members : List (Text × Json)) :
    renderMembers members = members.map (Prod.map id render) := by
  induction members with
  | nil => rfl
  | cons m members ih => rw [renderMembers, ih, List.map_cons, Prod.map, id]

section

variable {α β : Type} {m : Text × α} {members : List (Text × α)}

theorem insertMember_perm (m : Text × α) (members : List (Text × α)) :
    (insertMember m members).Perm (m :: members) := by
  induction members with
  | nil => exact .refl _
  | cons x rest ih =>
      rw [insertMember]
      split
      · exact (ih.cons x).trans (.swap m x rest)
      · exact .refl _

theorem sortMembers_perm (members : List (Text × α)) : (sortMembers members).Perm members := by
  induction members with
  | nil => exact .refl _
  | cons m rest ih => exact (insertMember_perm m _).trans (ih.cons m)

theorem map_insertMember (f : α → β) (m : Text × α) (members : List (Text × α)) :
    (insertMember m members).map (Prod.map id f) =
      insertMember (Prod.map id f m) (members.map (Prod.map id f)) := by
  induction members with
  | nil => rfl
  | cons x rest ih =>
      simp only [insertMember, List.map_cons]
      split
      · next hlt => simp [ih, hlt]
      · next hle => simp [hle]

theorem map_sortMembers (f : α → β) (members : List (Text × α)) :
    (sortMembers members).map (Prod.map id f) = sortMembers (members.map (Prod.map id f)) := by
  induction members with
  | nil => rfl
  | cons m rest ih =>
      change (insertMember m (sortMembers rest)).map _ = insertMember _ (sortMembers _)
      rw [map_insertMember, ih]

theorem pairwise_insertMember (h : (members.map Prod.fst).Pairwise (· < ·))
    (hnew : m.1 ∉ members.map Prod.fst) :
    ((insertMember m members).map Prod.fst).Pairwise (· < ·) := by
  induction members with
  | nil => simp [insertMember]
  | cons x rest ih =>
      obtain ⟨hx, hrest⟩ := List.pairwise_cons.1 h
      simp only [List.map_cons, List.mem_cons, not_or] at hnew
      rw [insertMember]
      split
      · next hlt =>
        refine List.pairwise_cons.2 ⟨fun name hname => ?_, ih hrest hnew.2⟩
        have hmem := ((insertMember_perm m rest).map Prod.fst).mem_iff.1 hname
        rcases List.mem_cons.1 hmem with rfl | hmem
        · exact hlt
        · exact hx name hmem
      · next hle =>
        have hfirst : m.1 < x.1 := lt_of_le_of_ne (not_lt.1 hle) hnew.1
        refine List.pairwise_cons.2 ⟨fun name hname => ?_, h⟩
        rcases List.mem_cons.1 hname with rfl | hname
        · exact hfirst
        · exact lt_trans hfirst (hx name hname)

theorem pairwise_sortMembers (h : (members.map Prod.fst).Nodup) :
    ((sortMembers members).map Prod.fst).Pairwise (· < ·) := by
  induction members with
  | nil => exact .nil
  | cons m rest ih =>
      obtain ⟨hnew, hrest⟩ := List.nodup_cons.1 h
      refine pairwise_insertMember (ih hrest) fun hmem => hnew ?_
      exact ((sortMembers_perm rest).map Prod.fst).mem_iff.1 hmem

end

theorem map_fst_map (f : Json → Json) (members : List (Text × Json)) :
    (members.map (Prod.map id f)).map Prod.fst = members.map Prod.fst := by
  simp [List.map_map]

/-- Sorting makes the names in every object strictly increasing. -/
theorem Distinct.ordered_sorted {v : Json} (h : v.Distinct) : v.sorted.Ordered := by
  induction h with
  | null => exact .null
  | bool value => exact .bool value
  | int value => exact .int value
  | str value => exact .str value
  | @arr items inner ih =>
      rw [sorted, sortedItems_eq]
      refine .arr fun item hitem => ?_
      obtain ⟨item, hmem, rfl⟩ := List.mem_map.1 hitem
      exact ih item hmem
  | @obj members names inner ih =>
      rw [sorted, sortedMembers_eq]
      refine .obj (pairwise_sortMembers (by rwa [map_fst_map])) fun m hm => ?_
      obtain ⟨m, hmem, rfl⟩ := List.mem_map.1 ((sortMembers_perm _).mem_iff.1 hm)
      exact ih m hmem

/-- In the sorted form of an object a name stands for the sorted form of what it stood for. -/
theorem member?_sorted {members : List (Text × Json)} (h : (members.map Prod.fst).Nodup)
    (name : Text) : (obj members).sorted.member? name = (members.lookup name).map sorted := by
  have hnodup : (((sortMembers (members.map (Prod.map id sorted)))).map Prod.fst).Nodup := by
    rwa [((sortMembers_perm _).map Prod.fst).nodup_iff, map_fst_map]
  rw [sorted, sortedMembers_eq, member?, Text.lookup_of_perm (sortMembers_perm _) hnodup,
    Text.lookup_map]

end SourceLoader.Json
