import SourceLoader.Canonical
import SourceLoader.Proofs.Path.Location

/-!
Descending along names. The way down to a place is clear when every directory on it can be entered
and every name on it is short enough, whatever stands at the place itself. Along a clear way a
look-up goes straight to the place, so the host answers questions about the path of the place from
the entry that stands there.
-/

namespace SourceLoader

open SourceLoader.Path

/-- Whether a look-up can go from the root down to a place. -/
inductive Tree.Clear (tree : Tree) : Location → Prop
  | root : Clear tree []
  | enter {here : Location} {name : Text} (above : Clear tree here)
      (directory : tree.get? here = some (.directory false)) (named : IsName name)
      (short : name.utf8Length ≤ Host.maxName) : Clear tree (here ++ [name])

namespace Tree

theorem clear_concat_iff {tree : Tree} {here : Location} {name : Text} :
    tree.Clear (here ++ [name]) ↔
      tree.Clear here ∧ tree.get? here = some (.directory false) ∧ IsName name ∧
        name.utf8Length ≤ Host.maxName := by
  constructor
  · intro h
    generalize hl : here ++ [name] = location at h
    cases h with
    | root => simp at hl
    | enter above directory named short =>
        obtain ⟨rfl, hname⟩ := List.append_inj' hl rfl
        obtain rfl : name = _ := by simpa using hname
        exact ⟨above, directory, named, short⟩
  · rintro ⟨above, directory, named, short⟩
    exact .enter above directory named short

theorem Clear.named {tree : Tree} {location : Location} (h : tree.Clear location) :
    Location.Named location := by
  induction h with
  | root => simp
  | enter above directory named short ih => simp [ih, named]

theorem Clear.dropLast {tree : Tree} {location : Location} (h : tree.Clear location) :
    tree.Clear location.dropLast := by
  cases h with
  | root => exact .root
  | enter above directory named short => simpa using above

theorem Clear.of_prefix {tree : Tree} {front location : Location} (h : tree.Clear location)
    (hfront : front <+: location) : tree.Clear front := by
  induction h with
  | root => exact List.prefix_nil.1 hfront ▸ .root
  | enter above directory named short ih =>
      rcases List.prefix_concat_iff.1 hfront with rfl | hfront
      · exact .enter above directory named short
      · exact ih hfront

theorem Clear.get?_of_prefix {tree : Tree} {front location : Location} (h : tree.Clear location)
    (hfront : front <+: location) (hne : front ≠ location) :
    tree.get? front = some (.directory false) := by
  induction h with
  | root => exact absurd (List.prefix_nil.1 hfront) hne
  | @enter here name above directory named short ih =>
      rcases List.prefix_concat_iff.1 hfront with rfl | hfront
      · exact absurd rfl hne
      · by_cases heq : front = here
        · exact heq ▸ directory
        · exact ih hfront heq

end Tree

namespace Host

variable {tree : Tree} {followLast : Bool} {links : Nat} {here last : Location} {name : Text}
  {rest : List Text}

theorem walk_slash {denied : Bool} (hdir : tree.get? here = some (.directory denied)) :
    walk tree followLast links here ([] :: rest) = walk tree followLast links here rest := by
  rw [walk]
  simp [hdir]

/-- A look-up that goes on along a name enters the directory that it has reached, and finds
something under the name. -/
theorem exists_entry_of_walk (hname : IsName name)
    (h : walk tree followLast links here (name :: rest) = .ok (.existing last)) :
    tree.get? here = some (.directory false) ∧ name.utf8Length ≤ maxName ∧
      ∃ entry, tree.get? (here ++ [name]) = some entry := by
  rw [walk] at h
  split at h
  · next denied hdir =>
    rw [if_neg hname.ne_nil] at h
    cases denied with
    | true => simp at h
    | false =>
        rw [if_neg (by simp), if_neg hname.ne_dot, if_neg hname.ne_dotDot] at h
        split at h
        · cases h
        · next hlen =>
          refine ⟨hdir, Nat.le_of_not_lt hlen, ?_⟩
          cases hentry : tree.get? (here ++ [name]) with
          | none =>
              rw [hentry] at h
              simp only at h
              split at h <;> cases h
          | some entry => exact ⟨entry, rfl⟩
  · cases h

theorem walk_missing (hdir : tree.get? here = some (.directory false)) (hname : IsName name)
    (hlen : name.utf8Length ≤ maxName) (hentry : tree.get? (here ++ [name]) = none) :
    walk tree followLast links here (name :: rest) =
      if rest = [] then .ok (.free here name) else .error .notFound := by
  rw [walk]
  simp [hdir, hname.ne_nil, hname.ne_dot, hname.ne_dotDot, Nat.not_lt.2 hlen, hentry]

theorem walk_link_last {target : Text} (hdir : tree.get? here = some (.directory false))
    (hname : IsName name) (hlen : name.utf8Length ≤ maxName)
    (hentry : tree.get? (here ++ [name]) = some (.link target)) :
    walk tree false links here [name] = .ok (.existing (here ++ [name])) := by
  rw [walk]
  simp [hdir, hname.ne_nil, hname.ne_dot, hname.ne_dotDot, Nat.not_lt.2 hlen, hentry]

theorem walk_enter {entry : Entry} (hdir : tree.get? here = some (.directory false))
    (hname : IsName name) (hlen : name.utf8Length ≤ maxName)
    (hentry : tree.get? (here ++ [name]) = some entry) (hlink : ∀ target, entry ≠ .link target) :
    walk tree followLast links here (name :: rest) =
      walk tree followLast links (here ++ [name]) rest := by
  rw [walk]
  cases entry with
  | link target => exact absurd rfl (hlink target)
  | file | directory | pipe =>
      simp [hdir, hname.ne_nil, hname.ne_dot, hname.ne_dotDot, Nat.not_lt.2 hlen, hentry]

theorem walk_of_clear {denied : Bool} (h : tree.Clear here)
    (hdir : tree.get? here = some (.directory denied)) :
    walk tree followLast links [] (here ++ rest) = walk tree followLast links here rest := by
  induction h generalizing rest denied with
  | root => rfl
  | @enter here name above directory named short ih =>
      rw [List.append_assoc, ih directory, List.singleton_append]
      exact walk_enter directory named short hdir (by simp)

theorem checkLength_eq_ok_iff {path : Text} {u : Unit} :
    checkLength path = .ok u ↔ path ≠ [] ∧ path.utf8Length < pathLimit := by
  unfold checkLength
  split
  · simp_all
  · split <;> simp_all

theorem lookup_path (host : Host) {location : Location} (h : location.Named)
    (hshort : (Location.path location).utf8Length < pathLimit) :
    host.lookup followLast (Location.path location) =
      walk host.tree followLast maxLinks [] location := by
  have hcheck : checkLength (Location.path location) = .ok () :=
    checkLength_eq_ok_iff.2 ⟨by simp [Location.path], hshort⟩
  obtain ⟨denied, hroot⟩ := host.tree.get?_root
  rw [lookup_of_isAbsolute host followLast (Location.isAbsolute_path location), lookupFrom, hcheck]
  by_cases hl : location = []
  · subst hl
    simp only [Location.splitOn_path_nil, walk_slash hroot]
  · simp only [Location.splitOn_path h hl, walk_slash hroot]

theorem lookup_path_of_clear (host : Host) {location : Location} (h : host.tree.Clear location)
    (hshort : (Location.path location).utf8Length < pathLimit) :
    host.entryAt (host.lookup false (Location.path location)) =
      match host.tree.get? location with
      | some entry => .ok entry
      | none => .error .notFound := by
  rw [lookup_path host h.named hshort]
  cases h with
  | root => rw [walk]; rfl
  | @enter here name above directory named short =>
      rw [walk_of_clear above directory]
      cases hentry : host.tree.get? (here ++ [name]) with
      | none => simp [walk_missing directory named short hentry, entryAt]
      | some entry =>
          by_cases hlink : ∃ target, entry = .link target
          · obtain ⟨target, rfl⟩ := hlink
            simp [walk_link_last directory named short hentry, entryAt, hentry]
          · have hlink : ∀ target, entry ≠ .link target := fun target he => hlink ⟨target, he⟩
            rw [walk_enter directory named short hentry hlink, walk]
            simp [entryAt, hentry]

def targetAt? (tree : Tree) (location : Location) : Option Text :=
  match tree.get? location with
  | some (.link target) => some target
  | _ => none

theorem targetAt?_eq_some_iff {location : Location} {target : Text} :
    targetAt? tree location = some target ↔ tree.get? location = some (.link target) := by
  unfold targetAt?
  split <;> simp_all

theorem linkTarget?_path_of_clear (host : Host) {location : Location}
    (h : host.tree.Clear location) (hshort : (Location.path location).utf8Length < pathLimit)
    (hnul : '\x00' ∉ Location.path location) :
    host.linkTarget? (Location.path location) = .ok (targetAt? host.tree location) := by
  simp only [linkTarget?, lookup_path_of_clear host h hshort, request, if_neg hnul, targetAt?]
  cases host.tree.get? location with
  | none => rfl
  | some entry => cases entry <;> rfl

theorem linkTarget?_of_long {host : Host} {path : Text} (hlong : pathLimit ≤ path.utf8Length)
    (hnul : '\x00' ∉ path) : host.linkTarget? path = .ok none := by
  have hne : path ≠ [] := by
    rintro rfl
    simp [pathLimit] at hlong
  have hlookup : host.lookup false path = .error .nameTooLong := by
    simp [lookup, checkLength, hne, hlong]
  simp [linkTarget?, hlookup, entryAt, request, hnul]

/-- Whether the host says of no place on the way to a location that a link stands there. It says so
also where it finds nothing. -/
def Unlinked (host : Host) (location : Location) : Prop :=
  ∀ front, front <+: location → front ≠ [] →
    host.linkTarget? (Location.path front) = .ok none

theorem Unlinked.of_prefix {host : Host} {front location : Location} (h : host.Unlinked location)
    (hfront : front <+: location) : host.Unlinked front :=
  fun q hq hne => h q (hq.trans hfront) hne

theorem unlinked_concat_iff {host : Host} {location : Location} :
    host.Unlinked (location ++ [name]) ↔
      host.Unlinked location ∧
        host.linkTarget? (Location.path (location ++ [name])) = .ok none := by
  constructor
  · intro h
    exact ⟨h.of_prefix (List.prefix_append _ _), h _ (List.prefix_refl _) (by simp)⟩
  · rintro ⟨h, hlast⟩ front hfront hne
    rcases List.prefix_concat_iff.1 hfront with rfl | hfront
    · exact hlast
    · exact h front hfront hne

theorem nul_not_mem_of_linkTarget? {host : Host} {path : Text} {answer : Option Text}
    (h : host.linkTarget? path = .ok answer) : '\x00' ∉ path := by
  intro hnul
  simp [linkTarget?, request, hnul] at h

/-- A look-up that succeeds along names under which the host knows no link has descended along all
of them, for nothing but a link could have led it elsewhere. -/
theorem clear_of_walk {host : Host} {names : Location} (hclear : host.tree.Clear here)
    (hunlinked : host.Unlinked (here ++ names)) (hnames : names.Named)
    (hshort : (Location.path (here ++ names)).utf8Length < pathLimit)
    (h : walk host.tree followLast links here (names ++ rest) = .ok (.existing last)) :
    host.tree.Clear (here ++ names) ∧
      walk host.tree followLast links (here ++ names) rest = .ok (.existing last) := by
  induction names generalizing here with
  | nil => simpa using ⟨hclear, h⟩
  | cons name names ih =>
      obtain ⟨hname, hnames⟩ := Location.named_cons.1 hnames
      obtain ⟨hdir, hlen, entry, hentry⟩ := exists_entry_of_walk hname h
      have hnext : host.tree.Clear (here ++ [name]) := .enter hclear hdir hname hlen
      have hprefix : here ++ [name] <+: here ++ name :: names := ⟨names, by simp⟩
      have hknown := hunlinked (here ++ [name]) hprefix (by simp)
      -- The way to this name is clear, so the host would have told of a link under it.
      have hlink : ∀ target, entry ≠ .link target := by
        rintro target rfl
        rw [linkTarget?_path_of_clear host hnext
          (Nat.lt_of_le_of_lt (Location.utf8Length_path_le hprefix) hshort)
          (nul_not_mem_of_linkTarget? hknown), targetAt?_eq_some_iff.2 hentry] at hknown
        cases hknown
      rw [List.cons_append, walk_enter hdir hname hlen hentry hlink] at h
      have happend : here ++ name :: names = here ++ [name] ++ names := by simp
      rw [happend] at hunlinked hshort ⊢
      exact ih hnext hunlinked hnames hshort h

theorem short_of_lookup {host : Host} {path : Text} {place : Place}
    (h : host.lookup followLast path = .ok place) : path.utf8Length < pathLimit := by
  cases hcheck : checkLength path with
  | error e => simp [lookup, hcheck] at h
  | ok _ => exact (checkLength_eq_ok_iff.1 hcheck).2

theorem eq_of_lookup_path {host : Host} {location : Location} (hunlinked : host.Unlinked location)
    (hnamed : location.Named)
    (h : host.lookup followLast (Location.path location) = .ok (.existing last)) :
    last = location ∧ host.tree.Clear location := by
  have hshort := short_of_lookup h
  rw [lookup_path host hnamed hshort, ← List.append_nil location] at h
  have hdescent := clear_of_walk .root (by simpa using hunlinked) hnamed (by simpa using hshort) h
  rw [List.nil_append] at hdescent
  obtain ⟨hclear, hend⟩ := hdescent
  rw [walk] at hend
  exact ⟨by simpa using hend.symm, hclear⟩

theorem get?_of_linkTarget? {host : Host} {location : Location} {target : Text}
    (hunlinked : host.Unlinked location) (hnamed : (location ++ [name]).Named)
    (h : host.linkTarget? (Location.path (location ++ [name])) = .ok (some target)) :
    host.tree.get? (location ++ [name]) = some (.link target) := by
  obtain ⟨hlocation, hname⟩ := Location.named_append.1 hnamed
  have hname : IsName name := hname name (by simp)
  have hnul := nul_not_mem_of_linkTarget? h
  cases hplace : host.lookup false (Location.path (location ++ [name])) with
  | error e => simp [linkTarget?, request, hnul, hplace, entryAt] at h
  | ok place =>
      cases place with
      | free directory name => simp [linkTarget?, request, hnul, hplace, entryAt] at h
      | existing last =>
          have hshort := short_of_lookup hplace
          have habove : location <+: location ++ [name] := List.prefix_append _ _
          rw [lookup_path host hnamed hshort] at hplace
          obtain ⟨hclear, hlast⟩ := clear_of_walk .root (by simpa using hunlinked) hlocation
            (by simpa using
              Nat.lt_of_le_of_lt (Location.utf8Length_path_le habove) hshort) hplace
          rw [List.nil_append] at hclear hlast
          obtain ⟨hdir, hlen, -⟩ := exists_entry_of_walk hname hlast
          have hnext : host.tree.Clear (location ++ [name]) := .enter hclear hdir hname hlen
          rw [linkTarget?_path_of_clear host hnext hshort hnul] at h
          exact targetAt?_eq_some_iff.1 (Except.ok.inj h)

end Host

end SourceLoader
