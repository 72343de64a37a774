import Mathlib
import SourceLoader.Proofs.Host.Canonicalize
import SourceLoader.Proofs.Host.Depth
import SourceLoader.Proofs.Host.Route

/-!
Resolving links finds what a look-up finds. The text of a path is rebuilt along the route that the
look-up goes, and is at all times the path of the place that the route has reached. A link that is
met again is one whose route is known, never one whose target is still being rebuilt, because the
route along a target has fewer links than any route through the link itself.
-/

namespace SourceLoader

open SourceLoader.Path

namespace Tree

def LinkRoute (tree : Tree) (location : Location) (links : Nat) (there : Location) : Prop :=
  ∃ here name target, location = here ++ [name] ∧ tree.get? location = some (.link target) ∧
    tree.Route (Host.origin target here) (target.splitOn '/') links there

theorem LinkRoute.unique {tree : Tree} {location there other : Location} {n m : Nat}
    (h : tree.LinkRoute location n there) (h' : tree.LinkRoute location m other) :
    m = n ∧ other = there := by
  obtain ⟨here, name, target, rfl, hlink, hroute⟩ := h
  obtain ⟨here', name', target', hsplit, hlink', hroute'⟩ := h'
  obtain ⟨rfl, -⟩ := List.append_inj' hsplit rfl
  obtain rfl := Entry.link.inj (Option.some.inj (hlink.symm.trans hlink'))
  exact hroute.unique hroute'

end Tree

namespace Host

variable {host : Host}

/-- Whether every entry of the host can be asked for by its absolute path, which is not too long and
has no NUL in it. -/
def Reachable (host : Host) : Prop :=
  ∀ location entry, host.tree.get? location = some entry →
    (Location.path location).utf8Length < pathLimit ∧ '\x00' ∉ Location.path location

theorem reachable_of_entries
    (h : ∀ e ∈ host.tree.entries,
      (Location.path e.1).utf8Length < pathLimit ∧ '\x00' ∉ Location.path e.1) :
    host.Reachable := by
  intro location entry hentry
  by_cases hne : location = []
  · subst hne
    decide
  · exact h (location, entry) (Tree.mem_entries_of_get? hne hentry)

def Traceable (host : Host) : Prop :=
  ∀ location entry, host.tree.get? location = some entry →
    '\x00' ∉ Location.path location ∧
      ((∃ target, entry = .link target) → (Location.path location).utf8Length < pathLimit)

theorem Reachable.traceable (h : host.Reachable) : host.Traceable :=
  fun location entry hentry =>
    ⟨(h location entry hentry).2, fun _ => (h location entry hentry).1⟩

/-- What is remembered while a path is rebuilt is true of the tree: the links that are remembered
with a path lead to the place of that path, and those without are being followed. -/
structure Seen.Sound (seen : Seen) (tree : Tree) (busy : List Location) : Prop where
  known : ∀ location known, Location.Named location →
    seen.lookup (Location.path location) = some (some known) →
      ∃ n there, tree.LinkRoute location n there ∧ known = Location.path there
  busy : ∀ location, Location.Named location →
    seen.lookup (Location.path location) = some none → location ∈ busy

/-- What holds while a path is rebuilt along a route with `n` links left: the links that are being
followed are all different, there is room for the others, and the route along the target of each is
at least as long as what is left. -/
structure Underway (tree : Tree) (depth : Nat) (busy : List Location) (n : Nat) : Prop where
  nodup : busy.Nodup
  room : tree.linkCount ≤ depth + busy.length
  outlasts : ∀ location ∈ busy, ∃ m there, tree.LinkRoute location m there ∧ n ≤ m

theorem Underway.mono {tree : Tree} {depth n m : Nat} {busy : List Location}
    (h : Underway tree depth busy n) (hle : m ≤ n) : Underway tree depth busy m := by
  refine ⟨h.nodup, h.room, fun location hmem => ?_⟩
  obtain ⟨k, there, hroute, hk⟩ := h.outlasts location hmem
  exact ⟨k, there, hroute, Nat.le_trans hle hk⟩

/-- A link on the way is not being followed, since its own route is shorter than what is left. -/
theorem Underway.not_mem {tree : Tree} {depth n m : Nat} {busy : List Location}
    {location there : Location} (h : Underway tree depth busy n)
    (hroute : tree.LinkRoute location m there) (hlt : m < n) : location ∉ busy := by
  intro hmem
  obtain ⟨k, there', hroute', hk⟩ := h.outlasts location hmem
  have hkm := (hroute.unique hroute').1
  omega

theorem Underway.enter {tree : Tree} {depth n m : Nat} {busy : List Location}
    {location there : Location} (h : Underway tree depth busy n)
    (hroute : tree.LinkRoute location m there) (hlt : m < n) :
    ∃ depth', depth = depth' + 1 ∧ Underway tree depth' (location :: busy) m := by
  have hnodup : (location :: busy).Nodup := List.nodup_cons.2 ⟨h.not_mem hroute hlt, h.nodup⟩
  have houtlasts : ∀ l ∈ location :: busy, ∃ k there, tree.LinkRoute l k there ∧ m ≤ k := by
    intro l hl
    rcases List.mem_cons.1 hl with rfl | hl
    · exact ⟨m, there, hroute, Nat.le_refl m⟩
    · exact (h.mono (Nat.le_of_lt hlt)).outlasts l hl
  have hlinks : ∀ l ∈ location :: busy, ∃ target, tree.get? l = some (.link target) := by
    intro l hl
    obtain ⟨k, there, ⟨here, name, target, -, hlink, -⟩, -⟩ := houtlasts l hl
    exact ⟨target, hlink⟩
  obtain ⟨depth', rfl, hroom⟩ := Tree.exists_room hnodup hlinks h.room
  exact ⟨depth', rfl, hnodup, hroom, houtlasts⟩

theorem Seen.sound_nil (tree : Tree) (busy : List Location) : Seen.Sound [] tree busy :=
  ⟨fun _ _ _ h => by simp at h, fun _ _ h => by simp at h⟩

theorem Seen.Sound.follow {tree : Tree} {seen : Seen} {busy : List Location} {location : Location}
    (h : seen.Sound tree busy) (hnamed : location.Named) :
    Seen.Sound ((Location.path location, none) :: seen) tree (location :: busy) := by
  constructor
  · intro l known hl hlookup
    rw [List.lookup_cons] at hlookup
    split at hlookup
    · cases hlookup
    · exact h.known l known hl hlookup
  · intro l hl hlookup
    rw [List.lookup_cons] at hlookup
    split at hlookup
    · next heq =>
      rw [Location.path_injective hl hnamed (by simpa using heq)]
      simp
    · exact List.mem_cons_of_mem _ (h.busy l hl hlookup)

theorem Seen.Sound.return {tree : Tree} {seen : Seen} {busy : List Location}
    {location there : Location} {n : Nat} (h : seen.Sound tree (location :: busy))
    (hnamed : location.Named) (hroute : tree.LinkRoute location n there) :
    Seen.Sound ((Location.path location, some (Location.path there)) :: seen) tree busy := by
  constructor
  · intro l known hl hlookup
    rw [List.lookup_cons] at hlookup
    split at hlookup
    · next heq =>
      rw [Location.path_injective hl hnamed (by simpa using heq)]
      exact ⟨n, there, hroute, by simpa using hlookup.symm⟩
    · exact h.known l known hl hlookup
  · intro l hl hlookup
    rw [List.lookup_cons] at hlookup
    split at hlookup
    · cases hlookup
    · next hne =>
      rcases List.mem_cons.1 (h.busy l hl hlookup) with rfl | hmem
      · simp at hne
      · exact hmem

theorem rebuild_begin (depth : Nat) (here : Location) (target : Text) (seen : Seen) :
    host.rebuild depth (beginRebuild (Location.path here) target).1
        (beginRebuild (Location.path here) target).2 seen =
      host.rebuild depth (Location.path (origin target here)) (target.splitOn '/') seen := by
  cases habs : isAbsolute target with
  | true =>
      obtain ⟨components, hsplit, hbegin⟩ := beginRebuild_of_isAbsolute habs (Location.path here)
      rw [hbegin, hsplit, rebuild_skip (.inl rfl)]
      simp [origin, habs]
  | false =>
      rw [beginRebuild_of_not_isAbsolute habs]
      simp [origin, habs]

theorem linkTarget?_append (htrace : host.Traceable) {here : Location} {name : Text} {entry : Entry}
    (hclear : host.tree.Clear (here ++ [name]))
    (hentry : host.tree.get? (here ++ [name]) = some entry) :
    host.linkTarget? (append (Location.path here) name) =
      .ok (targetAt? host.tree (here ++ [name])) := by
  have hnamed := hclear.named
  obtain ⟨hnul, hlink⟩ := htrace _ _ hentry
  rw [Location.append_path (Location.named_append.1 hnamed).1 (hnamed name (by simp))]
  by_cases hshort : (Location.path (here ++ [name])).utf8Length < pathLimit
  · exact linkTarget?_path_of_clear host hclear hshort hnul
  · have hsolid : ∀ target, entry ≠ .link target := fun target he => hshort (hlink ⟨target, he⟩)
    have hnone : targetAt? host.tree (here ++ [name]) = none := by
      unfold targetAt?
      rw [hentry]
      split
      · next target he => exact absurd (Option.some.inj he) (hsolid target)
      · rfl
    rw [hnone, linkTarget?_of_long (Nat.le_of_not_lt hshort) hnul]

/-- Rebuilding a path along a route arrives at the path of the place where the route ends. -/
theorem rebuild_of_route (htrace : host.Traceable) {here last : Location}
    {components : List Text} {n depth : Nat} {busy : List Location} {seen : Seen}
    (h : host.tree.Route here components n last) (hhere : host.tree.Stands here)
    (hunderway : Underway host.tree depth busy n) (hseen : seen.Sound host.tree busy) :
    ∃ seen', host.rebuild depth (Location.path here) components seen =
        .ok ⟨Location.path last, true, seen'⟩ ∧ seen'.Sound host.tree busy := by
  -- On the route and not on the depth: fewer links are left along every target, which tells the
  -- links on the way from those that are being followed.
  induction h generalizing depth busy seen with
  | arrive => exact ⟨seen, by rw [rebuild], hseen⟩
  | @step here there last name rest links first onward ih =>
      obtain ⟨seen', hrest, hseen'⟩ := ih (first.stands hhere) hunderway hseen
      refine ⟨seen', ?_, hseen'⟩
      cases first with
      | slash => rw [rebuild_skip (.inl rfl), hrest]
      | stay => rw [rebuild_skip (.inr rfl), hrest]
      | up => rw [rebuild_up, Location.above_path hhere.clear.named, hrest]
      | @enter name entry directory named short stands solid =>
          have hclear : host.tree.Clear (here ++ [name]) := .enter hhere.clear directory named short
          have hlink := linkTarget?_append htrace hclear stands
          have hplain : targetAt? host.tree (here ++ [name]) = none := by
            cases htarget : targetAt? host.tree (here ++ [name]) with
            | none => rfl
            | some target =>
                rw [targetAt?_eq_some_iff, stands] at htarget
                exact absurd (Option.some.inj htarget) (solid target)
          rw [rebuild_plain named (hplain ▸ hlink), Location.append_path hhere.clear.named named,
            hrest]
  | @follow here there last name target rest m n directory named short link inner onward ihInner
      ihOnward =>
      have hclear : host.tree.Clear (here ++ [name]) := .enter hhere.clear directory named short
      have hlink := linkTarget?_append htrace hclear link
      rw [targetAt?_eq_some_iff.2 link] at hlink
      have hroute : host.tree.LinkRoute (here ++ [name]) m there :=
        ⟨here, name, target, rfl, link, inner⟩
      have horigin := hhere.origin target
      have happend := Location.append_path hhere.clear.named named
      cases hlookup : seen.lookup (append (Location.path here) name) with
      | none =>
          obtain ⟨depth, rfl, hinside⟩ := hunderway.enter hroute (by omega)
          obtain ⟨seen', htarget, hseen'⟩ := ihInner horigin hinside
            (hseen.follow hclear.named)
          obtain ⟨seen'', hrest, hseen''⟩ := ihOnward (inner.stands horigin)
            (hunderway.mono (by omega)) (hseen'.return hclear.named hroute)
          rw [← rebuild_begin, ← happend] at htarget
          exact ⟨seen'', by rw [rebuild_fresh named hlink hlookup htarget, happend, hrest], hseen''⟩
      | some entry =>
          cases entry with
          | none =>
              -- The route along its own target would lead through the link once more.
              rw [happend] at hlookup
              exact absurd (hseen.busy _ hclear.named hlookup) (hunderway.not_mem hroute (by omega))
          | some known =>
              obtain ⟨seen', hrest, hseen'⟩ := ihOnward (inner.stands horigin)
                (hunderway.mono (by omega)) hseen
              refine ⟨seen', ?_, hseen'⟩
              rw [rebuild_known named hlink hlookup]
              rw [happend] at hlookup
              obtain ⟨k, there', hroute', rfl⟩ := hseen.known _ known hclear.named hlookup
              rw [(hroute.unique hroute').2, hrest]

theorem rebuilt_of_route (htrace : host.Traceable) {path : Text} {last : Location} {n : Nat}
    (habs : isAbsolute path = true) (hroute : host.tree.Route [] (path.splitOn '/') n last) :
    ∃ seen, host.rebuilt path = .ok ⟨Location.path last, true, seen⟩ := by
  have hstart : Underway host.tree host.tree.linkCount [] n :=
    ⟨List.nodup_nil, by simp, by simp⟩
  obtain ⟨seen, hrebuild, -⟩ := rebuild_of_route htrace hroute (Tree.stands_root _) hstart
    (Seen.sound_nil _ _)
  obtain ⟨components, hsplit, hbegin⟩ := beginRebuild_of_isAbsolute habs []
  rw [hsplit, rebuild_skip (.inl rfl)] at hrebuild
  refine ⟨seen, ?_⟩
  rw [rebuilt, hbegin]
  exact hrebuild

theorem realPath_of_route (hposix : host.platform = .posix) (htrace : host.Traceable)
    {path : Text} {last : Location} {n : Nat} (habs : isAbsolute path = true)
    (hroute : host.tree.Route [] (path.splitOn '/') n last) :
    host.realPath path = .ok (Location.path last) := by
  obtain ⟨seen, hrebuilt⟩ := rebuilt_of_route htrace habs hroute
  rw [realPath_posix hposix, hrebuilt]
  simp [Location.normalize_path (hroute.stands (Tree.stands_root _)).clear.named]

theorem exists_route_of_outset {path : Text} {here last : Location}
    (houtset : host.outset path = .ok here) (h : host.lookup true path = .ok (.existing last)) :
    ∃ n, host.tree.Route here (path.splitOn '/') n last := by
  unfold lookup at h
  rw [houtset] at h
  split at h
  · cases h
  · next hhere =>
    obtain rfl := Except.ok.inj hhere
    exact Tree.exists_route_of_walk (fun _ hc => Text.not_mem_of_mem_splitOn hc) h
  · cases h

theorem exists_route_of_lookup {path : Text} {last : Location} (habs : isAbsolute path = true)
    (h : host.lookup true path = .ok (.existing last)) :
    ∃ n, host.tree.Route [] (path.splitOn '/') n last :=
  exists_route_of_outset (if_pos habs) h

theorem stands_of_lookup {path : Text} {last : Location} (habs : isAbsolute path = true)
    (h : host.lookup true path = .ok (.existing last)) : host.tree.Stands last := by
  obtain ⟨n, hroute⟩ := exists_route_of_lookup habs h
  exact hroute.stands (Tree.stands_root _)

theorem realPath_of_lookup (hposix : host.platform = .posix) (htrace : host.Traceable)
    {path : Text} {last : Location} (habs : isAbsolute path = true)
    (h : host.lookup true path = .ok (.existing last)) :
    host.realPath path = .ok (Location.path last) := by
  obtain ⟨n, hroute⟩ := exists_route_of_lookup habs h
  exact realPath_of_route hposix htrace habs hroute

/-- Resolving canonicalization finds the true location of a path. A path with a NUL in it has none,
since every entry can be asked for. -/
theorem canonicalize_of_lookup (hposix : host.platform = .posix) (hreach : host.Reachable)
    {cwd : Text} {work : Location} (hcwd : host.workDir = some cwd) (habs : isAbsolute cwd = true)
    (hwork : host.lookup true cwd = .ok (.existing work)) :
    ∃ workDir, host.canonicalWorkDir = .ok workDir ∧
      ∀ path location, isUnc .posix (anchor .posix workDir path) = false →
        host.lookup true (anchor .posix workDir path) = .ok (.existing location) →
          ∃ slash, (slash = [] ∨ slash = ['/'] ∧ location ≠ []) ∧
            host.canonicalize path true = .ok (Location.path location ++ slash) ∧
            (∀ front, front <+: location →
              ∀ target, host.tree.get? front ≠ some (.link target)) ∧
            host.lookup true (Location.path location) = .ok (.existing location) := by
  have hworkDir : host.canonicalWorkDir = .ok (Location.path work) := by
    rw [canonicalWorkDir_posix hposix, hcwd]
    exact realPath_of_lookup hposix hreach.traceable habs hwork
  refine ⟨Location.path work, hworkDir, fun path location hunc hlookup => ?_⟩
  have hanchorAbs := isAbsolute_anchor (Location.isAbsolute_path work) path
  have hstands := stands_of_lookup hanchorAbs hlookup
  -- Links are resolved along the route of the look-up, so both arrive at one place.
  have hresolved : host.resolved path = .ok (Location.path location) := by
    have hreal := realPath_of_lookup hposix hreach.traceable hanchorAbs hlookup
    simpa [resolved, hworkDir, hposix, resolveLinks_posix hposix, hunc, bind, Except.bind]
      using hreal
  have hcanonical := canonicalize_of_resolved hposix hstands.clear.named hresolved
  rw [render_eq, List.nil_append] at hcanonical
  refine ⟨mark location (split .posix path).isDirectory, ?_, hcanonical,
    fun front hfront target => hstands.get?_ne_link hfront, ?_⟩
  · unfold mark
    split
    · next h => exact .inr ⟨rfl, h.1⟩
    · exact .inl rfl
  · obtain ⟨entry, hentry, -⟩ := hstands.solid
    exact lookup_of_stands host hstands (hreach location entry hentry).1

def chained : Host where
  platform := .posix
  tree := ⟨[(["a".toList], .directory false), (["a".toList, "b".toList], .directory false),
    (["a".toList, "b".toList, "f".toList], .file [] false), (["l".toList], .link "a/b".toList),
    (["a".toList, "m".toList], .link "../l/./f".toList)]⟩
  workDir := some "/l/..".toList

theorem canonicalize_chained :
    ∃ slash, (slash = [] ∨ slash = ['/']) ∧
      chained.canonicalize "m".toList true = .ok ("/a/b/f".toList ++ slash) := by
  have hreach : chained.Reachable := reachable_of_entries (by decide)
  have hwork : chained.lookup true "/l/..".toList = .ok (.existing ["a".toList]) := by cbv
  obtain ⟨workDir, hworkDir, h⟩ :=
    canonicalize_of_lookup rfl hreach rfl rfl hwork
  have hcanonicalWork : chained.canonicalWorkDir = .ok "/a".toList := by cbv
  obtain rfl := Except.ok.inj (hworkDir.symm.trans hcanonicalWork)
  obtain ⟨slash, hslash, hcanonical, -⟩ := h "m".toList ["a".toList, "b".toList, "f".toList]
    (by cbv) (by cbv)
  exact ⟨slash, hslash.imp_right And.left, hcanonical⟩

end Host

end SourceLoader
