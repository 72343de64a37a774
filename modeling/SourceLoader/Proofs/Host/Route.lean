import Mathlib.Data.List.Basic
import SourceLoader.Proofs.Host.Descent

/-!
Routes through the tree. A route is what a look-up that follows all links goes along when it ends at
something that exists: one step for each component that is not a link, and for a link the route
along its target. The number of links on a route is fixed by where it begins and what it goes along,
so no link can lie on the route along its own target.
-/

namespace SourceLoader

open SourceLoader.Path

namespace Tree

/-- A step along a component under which no link stands. -/
inductive Step (tree : Tree) (here : Location) : Text → Location → Prop
  | slash {denied : Bool} (directory : tree.get? here = some (.directory denied)) :
      Step tree here [] here
  | stay (directory : tree.get? here = some (.directory false)) : Step tree here dot here
  | up (directory : tree.get? here = some (.directory false)) :
      Step tree here dotDot here.dropLast
  | enter {name : Text} {entry : Entry} (directory : tree.get? here = some (.directory false))
      (named : IsName name) (short : name.utf8Length ≤ Host.maxName)
      (stands : tree.get? (here ++ [name]) = some entry) (solid : ∀ target, entry ≠ .link target) :
      Step tree here name (here ++ [name])

/-- A route from a place along components to another place, with the number of links that are
followed on it. -/
inductive Route (tree : Tree) : Location → List Text → Nat → Location → Prop
  | arrive {here : Location} : Route tree here [] 0 here
  | step {here there last : Location} {name : Text} {rest : List Text} {links : Nat}
      (first : tree.Step here name there) (onward : Route tree there rest links last) :
      Route tree here (name :: rest) links last
  | follow {here there last : Location} {name target : Text} {rest : List Text} {m n : Nat}
      (directory : tree.get? here = some (.directory false)) (named : IsName name)
      (short : name.utf8Length ≤ Host.maxName)
      (link : tree.get? (here ++ [name]) = some (.link target))
      (inner : Route tree (Host.origin target here) (target.splitOn '/') m there)
      (onward : Route tree there rest n last) :
      Route tree here (name :: rest) (m + n + 1) last

variable {tree : Tree} {here there other last : Location} {name : Text} {rest : List Text}
  {m n : Nat}

theorem Step.unique (h : tree.Step here name there) (h' : tree.Step here name other) :
    other = there := by
  cases h with
  | slash =>
      cases h' with
      | slash => rfl
      | enter _ named => exact absurd rfl named.ne_nil
  | stay =>
      cases h' with
      | stay => rfl
      | enter _ named => exact absurd rfl named.ne_dot
  | up =>
      cases h' with
      | up => rfl
      | enter _ named => exact absurd rfl named.ne_dotDot
  | enter _ named =>
      cases h' with
      | slash => exact absurd rfl named.ne_nil
      | stay => exact absurd rfl named.ne_dot
      | up => exact absurd rfl named.ne_dotDot
      | enter => rfl

theorem Step.get?_ne_link {target : Text} (h : tree.Step here name there) (hname : IsName name) :
    tree.get? (here ++ [name]) ≠ some (.link target) := by
  cases h with
  | slash => exact absurd rfl hname.ne_nil
  | stay => exact absurd rfl hname.ne_dot
  | up => exact absurd rfl hname.ne_dotDot
  | enter _ _ _ stands solid =>
      rw [stands]
      intro he
      exact solid target (Option.some.inj he)

theorem Route.unique {components : List Text} (h : tree.Route here components n last)
    (h' : tree.Route here components m other) : m = n ∧ other = last := by
  induction h generalizing m other with
  | arrive =>
      cases h' with
      | arrive => exact ⟨rfl, rfl⟩
  | step first onward ih =>
      cases h' with
      | step first' onward' =>
          obtain rfl := first.unique first'
          exact ih onward'
      | follow directory' named' short' link' inner' onward' =>
          exact absurd link' (first.get?_ne_link named')
  | follow directory named short link inner onward ihInner ihOnward =>
      cases h' with
      | step first' onward' => exact absurd link (first'.get?_ne_link named)
      | follow directory' named' short' link' inner' onward' =>
          obtain rfl := Entry.link.inj (Option.some.inj (link.symm.trans link'))
          obtain ⟨rfl, rfl⟩ := ihInner inner'
          obtain ⟨rfl, rfl⟩ := ihOnward onward'
          exact ⟨rfl, rfl⟩

theorem Route.split {front back : List Text} (h : tree.Route here (front ++ back) n last) :
    ∃ there k m, tree.Route here front k there ∧ tree.Route there back m last := by
  induction front generalizing here n with
  | nil => exact ⟨here, 0, n, .arrive, h⟩
  | cons name front ih =>
      cases h with
      | step first onward =>
          obtain ⟨there, k, m, hfront, hback⟩ := ih onward
          exact ⟨there, k, m, .step first hfront, hback⟩
      | follow directory named short link inner onward =>
          obtain ⟨there, k, m, hfront, hback⟩ := ih onward
          exact ⟨there, _, m, .follow directory named short link inner hfront, hback⟩

/-- A look-up that follows all links and ends at something that exists goes along a route. -/
theorem exists_route_of_walk {links : Nat} {components : List Text}
    (hcomponents : ∀ c ∈ components, '/' ∉ c)
    (h : Host.walk tree true links here components = .ok (.existing last)) :
    ∃ n, tree.Route here components n last := by
  fun_induction Host.walk tree true links here components with
  | case1 =>
      obtain rfl := Place.existing.inj (Except.ok.inj h)
      exact ⟨0, .arrive⟩
  | case2 links here rest denied hdir ih =>
      obtain ⟨n, hroute⟩ := ih (List.forall_mem_of_forall_mem_cons hcomponents) h
      exact ⟨n, .step (.slash hdir) hroute⟩
  | case4 links here rest denied hdir hdenied hne ih =>
      obtain ⟨n, hroute⟩ := ih (List.forall_mem_of_forall_mem_cons hcomponents) h
      obtain rfl : denied = false := by simpa using hdenied
      exact ⟨n, .step (.stay hdir) hroute⟩
  | case5 links here rest denied hdir hdenied hne hdot ih =>
      obtain ⟨n, hroute⟩ := ih (List.forall_mem_of_forall_mem_cons hcomponents) h
      obtain rfl : denied = false := by simpa using hdenied
      exact ⟨n, .step (.up hdir) hroute⟩
  | case12 here name rest denied hdir hne hdenied hdot hdd hlen target hlink hlast links hcheck
      ih =>
      obtain rfl : denied = false := by simpa using hdenied
      have hname : IsName name := ⟨hne, hcomponents name (by simp), hdot, hdd⟩
      have hall : ∀ c ∈ target.splitOn '/' ++ rest, '/' ∉ c := by
        intro c hc
        rcases List.mem_append.1 hc with hc | hc
        · exact Text.not_mem_of_mem_splitOn hc
        · exact List.forall_mem_of_forall_mem_cons hcomponents c hc
      -- The look-up puts the target in front of the rest, where a route goes along one and then
      -- the other.
      obtain ⟨n, hroute⟩ := ih hall h
      obtain ⟨there, k, m, hinner, honward⟩ := hroute.split
      exact ⟨k + m + 1, .follow hdir hname (Nat.le_of_not_lt hlen) hlink hinner honward⟩
  | case13 links here name rest denied hdir hne hdenied hdot hdd hlen entry hsolid hentry ih =>
      obtain rfl : denied = false := by simpa using hdenied
      have hname : IsName name := ⟨hne, hcomponents name (by simp), hdot, hdd⟩
      obtain ⟨n, hroute⟩ := ih (List.forall_mem_of_forall_mem_cons hcomponents) h
      exact ⟨n, .step (.enter hdir hname (Nat.le_of_not_lt hlen) hentry hsolid) hroute⟩
  -- The other look-ups fail, or end where nothing stands.
  | case3 | case6 | case7 | case8 | case9 | case10 | case11 | case14 => simp_all

/-- Whether a look-up that follows all links can end at a place: the way there is clear, and
something that is not a link stands there. -/
structure Stands (tree : Tree) (location : Location) : Prop where
  clear : tree.Clear location
  solid : ∃ entry, tree.get? location = some entry ∧ ∀ target, entry ≠ .link target

theorem Stands.get?_ne_link {front location : Location} {target : Text} (h : tree.Stands location)
    (hfront : front <+: location) : tree.get? front ≠ some (.link target) := by
  by_cases heq : front = location
  · obtain ⟨entry, hentry, hsolid⟩ := h.solid
    rw [heq, hentry]
    intro he
    exact hsolid target (Option.some.inj he)
  · rw [h.clear.get?_of_prefix hfront heq]
    simp

theorem stands_of_directory {denied : Bool} {location : Location} (h : tree.Clear location)
    (hdir : tree.get? location = some (.directory denied)) : tree.Stands location :=
  ⟨h, _, hdir, by simp⟩

theorem stands_root (tree : Tree) : tree.Stands [] := by
  obtain ⟨denied, hroot⟩ := tree.get?_root
  exact stands_of_directory .root hroot

theorem Stands.dropLast {location : Location} (h : tree.Stands location) :
    tree.Stands location.dropLast := by
  rcases List.eq_nil_or_concat location with rfl | ⟨front, last, rfl⟩
  · exact h
  · rw [List.concat_eq_append] at h ⊢
    have hdir := (clear_concat_iff.1 h.clear).2.1
    simpa using stands_of_directory (by simpa using h.clear.dropLast) hdir

theorem Step.stands (h : tree.Step here name there) (hhere : tree.Stands here) :
    tree.Stands there := by
  cases h with
  | slash => exact hhere
  | stay => exact hhere
  | up => exact hhere.dropLast
  | enter directory named short stands solid =>
      exact ⟨.enter hhere.clear directory named short, _, stands, solid⟩

theorem Stands.origin (h : tree.Stands here) (target : Text) :
    tree.Stands (Host.origin target here) := by
  unfold Host.origin
  split
  · exact stands_root tree
  · exact h

theorem Route.stands {components : List Text} (h : tree.Route here components n last)
    (hhere : tree.Stands here) : tree.Stands last := by
  induction h with
  | arrive => exact hhere
  | step first onward ih => exact ih (first.stands hhere)
  | follow directory named short link inner onward ihInner ihOnward =>
      exact ihOnward (ihInner (hhere.origin _))

end Tree

theorem Host.lookup_of_stands (host : Host) {followLast : Bool} {location : Location}
    (h : host.tree.Stands location)
    (hshort : (Location.path location).utf8Length < Host.pathLimit) :
    host.lookup followLast (Location.path location) = .ok (.existing location) := by
  obtain ⟨entry, hentry, hsolid⟩ := h.solid
  rw [Host.lookup_path host h.clear.named hshort]
  cases h.clear with
  | root => rw [Host.walk]
  | enter above directory named short =>
      rw [Host.walk_of_clear above directory, Host.walk_enter directory named short hentry hsolid,
        Host.walk]

end SourceLoader
