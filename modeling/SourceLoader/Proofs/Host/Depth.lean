import Mathlib.Data.List.Perm.Subperm
import SourceLoader.Proofs.Host.Rebuild

/-!
The depth to which links are followed into links is no limit. The links whose targets are being
rebuilt are all different, so there are never more of them than the tree has, and each link that is
met for the first time finds depth left.
-/

namespace SourceLoader

open SourceLoader.Path

namespace Tree

variable {tree : Tree} {location : Location}

theorem mem_entries_of_get? {entry : Entry} (hne : location ≠ [])
    (h : tree.get? location = some entry) : (location, entry) ∈ tree.entries := by
  rw [get?_of_ne_nil tree hne, List.lookup_eq_some_iff] at h
  obtain ⟨before, after, hentries, -⟩ := h
  simp [hentries]

theorem ne_nil_of_get?_link {target : Text} (h : tree.get? location = some (.link target)) :
    location ≠ [] := by
  rintro rfl
  obtain ⟨denied, hroot⟩ := tree.get?_root
  simp [hroot] at h

theorem length_le_countP {p : Location × Entry → Bool} {locations : List Location}
    (hnodup : locations.Nodup)
    (h : ∀ location ∈ locations, ∃ entry, (location, entry) ∈ tree.entries ∧ p (location, entry)) :
    locations.length ≤ tree.entries.countP p := by
  have hsub : locations ⊆ (tree.entries.filter p).map Prod.fst := by
    intro location hmem
    obtain ⟨entry, hentry, hp⟩ := h location hmem
    exact List.mem_map.2 ⟨(location, entry), List.mem_filter.2 ⟨hentry, hp⟩, rfl⟩
  have hlength := (List.subperm_of_subset hnodup hsub).length_le
  rwa [List.length_map, ← List.countP_eq_length_filter] at hlength

theorem length_le_linkCount {locations : List Location} (hnodup : locations.Nodup)
    (hlinks : ∀ location ∈ locations, ∃ target, tree.get? location = some (.link target)) :
    locations.length ≤ tree.linkCount := by
  refine length_le_countP hnodup fun location hmem => ?_
  obtain ⟨target, hlink⟩ := hlinks location hmem
  exact ⟨.link target, mem_entries_of_get? (ne_nil_of_get?_link hlink) hlink, rfl⟩

theorem exists_room {depth : Nat} {busy : List Location} (hnodup : (location :: busy).Nodup)
    (hlinks : ∀ l ∈ location :: busy, ∃ target, tree.get? l = some (.link target))
    (hroom : tree.linkCount ≤ depth + busy.length) :
    ∃ depth', depth = depth' + 1 ∧ tree.linkCount ≤ depth' + (location :: busy).length := by
  have hlength := length_le_linkCount hnodup hlinks
  rw [List.length_cons] at hlength
  exact ⟨depth - 1, by omega, by rw [List.length_cons]; omega⟩

end Tree

namespace Host

variable {host : Host} {depth : Nat} {path : Text} {components : List Text} {seen : Seen}
  {busy : List Location}

theorem lookup_cons_ne_none {next : Text} (key : Text) (entry : Option Text)
    (h : seen.lookup next ≠ none) : List.lookup next ((key, entry) :: seen) ≠ none := by
  rw [List.lookup_cons]
  split
  · simp
  · exact h

theorem lookup_ne_none_of_rebuild {r : Rebuilt} {next : Text}
    (h : host.rebuild depth path components seen = .ok r) (hnext : seen.lookup next ≠ none) :
    r.seen.lookup next ≠ none := by
  fun_induction rebuild host depth path components seen generalizing r with
  | case1 | case7 | case8 =>
      obtain rfl := Except.ok.inj h
      exact hnext
  | case2 _ _ _ _ _ _ ih | case3 _ _ _ _ _ ih => exact ih h hnext
  | case4 | case9 => cases h
  | case5 | case6 =>
      rename_i ih
      exact ih h hnext
  | case10 =>
      rename_i hinner ih
      have hstopped := ih hinner (lookup_cons_ne_none _ _ hnext)
      obtain rfl := Except.ok.inj h
      exact hstopped
  | case11 =>
      rename_i hinner ihInner ihRest
      exact ihRest h (lookup_cons_ne_none _ _ (ihInner hinner (lookup_cons_ne_none _ _ hnext)))

/-- What holds while links are followed into links: those whose targets are being rebuilt are all
different and are remembered, and there is room for the others. -/
structure Nested (host : Host) (depth : Nat) (busy : List Location) (seen : Seen) : Prop where
  nodup : busy.Nodup
  links : ∀ location ∈ busy, ∃ target, host.tree.get? location = some (.link target)
  met : ∀ location ∈ busy, seen.lookup (Location.path location) ≠ none
  room : host.tree.linkCount ≤ depth + busy.length

theorem Nested.mono {seen' : Seen} (h : host.Nested depth busy seen)
    (hmet : ∀ next, seen.lookup next ≠ none → seen'.lookup next ≠ none) :
    host.Nested depth busy seen' :=
  ⟨h.nodup, h.links, fun location hl => hmet _ (h.met location hl), h.room⟩

theorem exists_link_of_linkTarget? {name target : Text} (hpath : host.Linkless path)
    (hname : IsName name) (hlink : host.linkTarget? (append path name) = .ok (some target)) :
    ∃ location, append path name = Location.path location ∧
      host.tree.get? location = some (.link target) := by
  obtain ⟨location, hnamed, hunlinked, rfl⟩ := hpath
  rw [Location.append_path hnamed hname] at hlink ⊢
  exact ⟨location ++ [name], rfl,
    get?_of_linkTarget? hunlinked (by simp [hnamed, hname]) hlink⟩

theorem Nested.enter {name target : Text} (h : host.Nested depth busy seen)
    (hpath : host.Linkless path) (hname : IsName name)
    (hlink : host.linkTarget? (append path name) = .ok (some target))
    (hfresh : seen.lookup (append path name) = none) :
    ∃ depth' location, depth = depth' + 1 ∧
      host.Nested depth' (location :: busy) ((append path name, none) :: seen) := by
  obtain ⟨location, happend, hentry⟩ := exists_link_of_linkTarget? hpath hname hlink
  have hnodup : (location :: busy).Nodup :=
    List.nodup_cons.2 ⟨fun hmem => h.met location hmem (happend ▸ hfresh), h.nodup⟩
  have hlinks : ∀ l ∈ location :: busy, ∃ target, host.tree.get? l = some (.link target) := by
    intro l hl
    rcases List.mem_cons.1 hl with rfl | hl
    · exact ⟨target, hentry⟩
    · exact h.links l hl
  have hmet : ∀ l ∈ location :: busy,
      List.lookup (Location.path l) ((append path name, none) :: seen) ≠ none := by
    intro l hl
    rcases List.mem_cons.1 hl with rfl | hl
    · simp [happend]
    · exact lookup_cons_ne_none _ _ (h.met l hl)
  obtain ⟨depth', rfl, hroom⟩ := Tree.exists_room hnodup hlinks h.room
  exact ⟨depth', location, rfl, hnodup, hlinks, hmet, hroom⟩

theorem rebuild_deeper (hpath : host.Linkless path) (hcomponents : ∀ c ∈ components, '/' ∉ c)
    (hseen : seen.Known host.Linkless) (h : host.Nested depth busy seen) :
    host.rebuild (depth + 1) path components seen = host.rebuild depth path components seen := by
  fun_induction rebuild host depth path components seen generalizing busy with
  | case1 => rw [rebuild]
  | case2 depth path seen name rest hskip ih =>
      rw [rebuild_skip hskip, ih hpath (List.forall_mem_of_forall_mem_cons hcomponents) hseen h]
  | case3 depth path seen rest hskip ih =>
      rw [rebuild_up, ih hpath.above (List.forall_mem_of_forall_mem_cons hcomponents) hseen h]
  | case4 =>
      rw [rebuild]
      simp_all +zetaDelta
  | case5 depth path seen name rest hskip hup next hlink =>
      rename_i ih
      have hname := isName_of_component hskip hup (hcomponents name (by simp))
      rw [rebuild_plain hname hlink,
        ih (hpath.append hname hlink) (List.forall_mem_of_forall_mem_cons hcomponents) hseen h]
  | case6 depth path seen name rest hskip hup next target hlink known hknown =>
      rename_i ih
      have hname := isName_of_component hskip hup (hcomponents name (by simp))
      rw [rebuild_known hname hlink hknown,
        ih (hseen next known hknown) (List.forall_mem_of_forall_mem_cons hcomponents) hseen h]
  | case7 =>
      rw [rebuild]
      simp_all +zetaDelta [-List.lookup_eq_none_iff]
  | case8 path seen name rest hskip hup next target hlink =>
      rename_i hfresh
      -- No depth is left, so all links would have to be busy, but this one has not been met.
      have hname := isName_of_component hskip hup (hcomponents name (by simp))
      obtain ⟨depth', location, hdepth, -⟩ := h.enter hpath hname hlink hfresh
      cases hdepth
  | case9 path seen name rest hskip hup next target hlink hfresh depth inner fault hinner =>
      rename_i ih
      have hname := isName_of_component hskip hup (hcomponents name (by simp))
      obtain ⟨depth', location, hdepth, hinside⟩ := h.enter hpath hname hlink hfresh
      obtain rfl := Nat.succ.inj hdepth
      have hdeeper := ih (hpath.beginRebuild target) (slash_not_mem_beginRebuild path target)
        (hseen.cons next (by simp)) hinside
      rw [rebuild]
      simp [hskip, hup, next, hlink, hfresh, inner, hdeeper, hinner, -List.lookup_eq_none_iff]
  | case10 path seen name rest hskip hup next target hlink broken hfresh depth inner path' seen'
      hinner =>
      rename_i ih
      have hname := isName_of_component hskip hup (hcomponents name (by simp))
      obtain ⟨depth', location, hdepth, hinside⟩ := h.enter hpath hname hlink hfresh
      obtain rfl := Nat.succ.inj hdepth
      have hdeeper := ih (hpath.beginRebuild target) (slash_not_mem_beginRebuild path target)
        (hseen.cons next (by simp)) hinside
      rw [rebuild]
      simp [hskip, hup, next, hlink, hfresh, inner, hdeeper, hinner, broken,
        -List.lookup_eq_none_iff]
  | case11 path seen name rest hskip hup next target hlink hfresh depth inner path' seen' hinner
      ihInner =>
      rename_i ihRest
      have hname := isName_of_component hskip hup (hcomponents name (by simp))
      obtain ⟨depth', location, hdepth, hinside⟩ := h.enter hpath hname hlink hfresh
      obtain rfl := Nat.succ.inj hdepth
      have hdeeper := ihInner (hpath.beginRebuild target) (slash_not_mem_beginRebuild path target)
        (hseen.cons next (by simp)) hinside
      obtain ⟨hpath', hseen'⟩ := linkless_of_rebuild (hpath.beginRebuild target)
        (slash_not_mem_beginRebuild path target) (hseen.cons next (by simp)) hinner rfl
      have hknown : ∀ known, some path' = some known → host.Linkless known := by
        intro known he
        exact Option.some.inj he ▸ hpath'
      have hnested : host.Nested (depth + 1) busy ((next, some path') :: seen') :=
        h.mono fun _ hmet => lookup_cons_ne_none _ _
          (lookup_ne_none_of_rebuild hinner (lookup_cons_ne_none _ _ hmet))
      rw [rebuild_fresh hname hlink hfresh (hdeeper.trans hinner)]
      exact ihRest hpath' (List.forall_mem_of_forall_mem_cons hcomponents)
        (hseen'.cons next hknown) hnested

/-- The number of links is always enough depth: an absolute path is rebuilt no further with more
of it. -/
theorem rebuild_of_linkCount_le (habs : isAbsolute path = true)
    (hroom : host.tree.linkCount ≤ depth) :
    host.rebuild depth (beginRebuild [] path).1 (beginRebuild [] path).2 [] =
      host.rebuilt path := by
  have hstart : host.Linkless (beginRebuild [] path).1 := by
    obtain ⟨components, -, hbegin⟩ := beginRebuild_of_isAbsolute habs []
    rw [hbegin]
    exact linkless_root host
  -- At the outset no target is being rebuilt, so there has to be room for all links.
  induction depth, hroom using Nat.le_induction with
  | base => rfl
  | succ depth hroom ih =>
      have hnested : host.Nested depth [] [] := ⟨by simp, by simp, by simp, by simpa using hroom⟩
      rw [rebuild_deeper hstart (slash_not_mem_beginRebuild [] path) (Seen.known_nil _) hnested, ih]

end Host

end SourceLoader
