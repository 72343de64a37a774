import Mathlib
import SourceLoader.Proofs.Host.Access
import SourceLoader.Proofs.Host.Canonicalize
import SourceLoader.Session

/-!
How a search for an import goes. It passes the roots under which nothing exists and decides for the
first other one, or for the last. The path that it has decided for is then compared with the
boundary, and read if it is a file. Each of these is stated once, for what is proved about whole
reads.

Containment. What a read gives was taken from a file, and the path that the search had decided for
lies below a directory of the boundary. Where the links of that path could be resolved to the end,
the path is that of the file itself and the directory is reached on the way to it, so the file lies
below the directory in the tree.
-/

namespace SourceLoader

open SourceLoader.Path

/-- Whether a walk along a list stops at an element with `Q`, having passed only elements with
`P`. -/
def Stops (P Q : Text → Prop) (list : List Text) : Prop :=
  ∃ before x after, list = before ++ x :: after ∧ (∀ y ∈ before, P y) ∧ Q x

@[simp] theorem stops_nil {P Q : Text → Prop} : ¬ Stops P Q [] := by
  rintro ⟨before, x, after, h, -⟩
  simp at h

theorem stops_cons {P Q : Text → Prop} {x : Text} {rest : List Text} :
    Stops P Q (x :: rest) ↔ Q x ∨ P x ∧ Stops P Q rest := by
  constructor
  · rintro ⟨before, y, after, h, hbefore, hy⟩
    cases before with
    | nil =>
        obtain ⟨rfl, rfl⟩ := List.cons.inj h
        exact .inl hy
    | cons z before =>
        obtain ⟨rfl, rfl⟩ := List.cons.inj h
        exact .inr ⟨hbefore x (by simp), before, y, after, rfl,
          fun z hz => hbefore z (List.mem_cons_of_mem _ hz), hy⟩
  · rintro (hx | ⟨hx, before, y, after, rfl, hbefore, hy⟩)
    · exact ⟨[], x, rest, rfl, by simp, hx⟩
    · exact ⟨x :: before, y, after, rfl, by simpa using ⟨hx, hbefore⟩, hy⟩

theorem Stops.exists_mem {P Q : Text → Prop} {list : List Text} (h : Stops P Q list) :
    ∃ x ∈ list, Q x := by
  obtain ⟨before, x, after, rfl, -, hx⟩ := h
  exact ⟨x, by simp, hx⟩

namespace Sandbox

variable {host : Host} {candidate : Text} {directories : List Text}

theorem exists_of_liesBelowAny (h : liesBelowAny host candidate directories = .ok true) :
    ∃ directory ∈ directories, ∃ top, host.canonicalize directory true = .ok top ∧
      isBelow host.platform top candidate = .ok true := by
  induction directories with
  | nil => cases h
  | cons directory rest ih =>
      obtain ⟨top, htop, h⟩ := bind_eq_ok.1 h
      obtain ⟨below, hbelow, h⟩ := bind_eq_ok.1 h
      cases below with
      | true => exact ⟨directory, by simp, top, htop, hbelow⟩
      | false =>
          obtain ⟨d, hd, hlies⟩ := ih h
          exact ⟨d, List.mem_cons_of_mem _ hd, hlies⟩

theorem not_below_of_liesBelowAny (h : liesBelowAny host candidate directories = .ok false) :
    ∀ directory ∈ directories, ∃ top, host.canonicalize directory true = .ok top ∧
      isBelow host.platform top candidate = .ok false := by
  induction directories with
  | nil => simp
  | cons directory rest ih =>
      obtain ⟨top, htop, h⟩ := bind_eq_ok.1 h
      obtain ⟨below, hbelow, h⟩ := bind_eq_ok.1 h
      cases below with
      | true => cases h
      | false => exact List.forall_mem_cons.2 ⟨⟨top, htop, hbelow⟩, ih h⟩

theorem liesBelowAny_congr {other : Host} (hplatform : other.platform = host.platform)
    (h : ∀ directory ∈ directories,
      other.canonicalize directory true = host.canonicalize directory true) :
    liesBelowAny other candidate directories = liesBelowAny host candidate directories := by
  induction directories with
  | nil => rfl
  | cons directory rest ih =>
      obtain ⟨hdirectory, hrest⟩ := List.forall_mem_cons.1 h
      simp only [liesBelowAny, hdirectory, hplatform, ih hrest]

end Sandbox

namespace Session

variable {host : Host} {s : Session} {name path text : Text} {roots : List Text}

def Missing (host : Host) (name root : Text) : Prop :=
  ∃ candidate, host.canonicalize (joinSearchPath root name) true = .ok candidate ∧
    host.pathExists (hostPath candidate) = .ok false

/-- Whether a search along the roots decides for a path below one of them: nothing exists below the
roots before that one, and something does below it, unless it is the last. -/
def Chosen (host : Host) (name : Text) (roots : List Text) (root path : Text) : Prop :=
  ∃ before after, roots = before ++ root :: after ∧
    (∀ earlier ∈ before, Missing host name earlier) ∧
    host.canonicalize (joinSearchPath root name) true = .ok path ∧
    (after = [] ∨ host.pathExists (hostPath path) = .ok true)

theorem Chosen.cons {first root : Text} (h : Chosen host name roots root path)
    (hfirst : Missing host name first) : Chosen host name (first :: roots) root path := by
  obtain ⟨before, after, rfl, hbefore, hpath, hafter⟩ := h
  exact ⟨first :: before, after, rfl, by simpa using ⟨hfirst, hbefore⟩, hpath, hafter⟩

theorem Chosen.mem {root : Text} (h : Chosen host name roots root path) : root ∈ roots := by
  obtain ⟨before, after, rfl, -⟩ := h
  simp

theorem exists_chosen_of_findCandidate {last : Text} (hne : roots ≠ [])
    (h : findCandidate host name last roots = .ok path) :
    ∃ root, Chosen host name roots root path := by
  induction roots generalizing last with
  | nil => exact absurd rfl hne
  | cons root rest ih =>
      obtain ⟨candidate, hcandidate, h⟩ := bind_eq_ok.1 h
      obtain ⟨found, hexists, h⟩ := bind_eq_ok.1 h
      cases found with
      | true =>
          obtain rfl := Except.ok.inj h
          exact ⟨root, [], rest, rfl, by simp, hcandidate, .inr hexists⟩
      | false =>
          by_cases hrest : rest = []
          · subst hrest
            obtain rfl := Except.ok.inj h
            exact ⟨root, [], [], rfl, by simp, hcandidate, .inl rfl⟩
          · obtain ⟨later, hchosen⟩ := ih hrest h
            exact ⟨later, hchosen.cons ⟨candidate, hcandidate, hexists⟩⟩

theorem findCandidate_of_chosen {root : Text} (h : Chosen host name roots root path)
    (hexists : host.pathExists (hostPath path) = .ok true) (last : Text) :
    findCandidate host name last roots = .ok path := by
  obtain ⟨before, after, rfl, hbefore, hpath, -⟩ := h
  induction before generalizing last with
  | nil => exact bind_eq_ok.2 ⟨path, hpath, bind_eq_ok.2 ⟨true, hexists, rfl⟩⟩
  | cons first before ih =>
      obtain ⟨⟨candidate, hcandidate, hmissing⟩, hbefore⟩ := List.forall_mem_cons.1 hbefore
      exact bind_eq_ok.2 ⟨candidate, hcandidate,
        bind_eq_ok.2 ⟨false, hmissing, ih candidate hbefore⟩⟩

/-- What is done with the path that a search has decided for. -/
def inspect (host : Host) (sandbox : Sandbox) (path : Text) : Except Fault Finding := do
  if !(← sandbox.isAllowed host path) then return .outside path
  if !(← host.pathExists (hostPath path)) then return .notFound path
  if !(← host.isFile (hostPath path)) then return .notRegular path
  return .loaded path (← host.readText (hostPath path))

theorem find_eq (host : Host) (sandbox : Sandbox) (name : Text) :
    find host sandbox name =
      findCandidate host (withoutScheme name) [] sandbox.searchPrefixes >>= inspect host sandbox :=
  rfl

theorem inspect_eq_loaded {sandbox : Sandbox} {path' : Text}
    (h : inspect host sandbox path = .ok (.loaded path' text)) :
    path' = path ∧ sandbox.isAllowed host path = .ok true ∧
      host.isFile (hostPath path) = .ok true ∧ host.readText (hostPath path) = .ok text := by
  obtain ⟨allowed, hallowed, h⟩ := bind_eq_ok.1 h
  cases allowed with
  | false => cases h
  | true =>
      obtain ⟨found, -, h⟩ := bind_eq_ok.1 h
      cases found with
      | false => cases h
      | true =>
          obtain ⟨file, hfile, h⟩ := bind_eq_ok.1 h
          cases file with
          | false => cases h
          | true =>
              obtain ⟨text', htext, h⟩ := bind_eq_ok.1 h
              cases h
              exact ⟨rfl, hallowed, hfile, htext⟩

theorem conclude_fst (s s' : Session) (name : Text) (result : Except Fault Finding) :
    (s.conclude name result).1 = (s'.conclude name result).1 := by
  cases result with
  | ok finding => cases finding <;> rfl
  | error fault => cases fault <;> rfl

theorem inspect_of_readable {sandbox : Sandbox} (hallowed : sandbox.isAllowed host path = .ok true)
    (hisFile : host.isFile (hostPath path) = .ok true)
    (htext : host.readText (hostPath path) = .ok text) :
    inspect host sandbox path = .ok (.loaded path text) := by
  have hexists := Host.pathExists_of_ask hisFile
  simp only [inspect, hallowed, hexists, hisFile, htext]
  rfl

/-- Two hosts that give the same answers about a path do the same with it. What cannot be read need
not be the same. -/
theorem inspect_congr {other : Host} {sandbox : Sandbox}
    (hallowed : sandbox.isAllowed other path = sandbox.isAllowed host path)
    (hexists : other.pathExists (hostPath path) = host.pathExists (hostPath path))
    (hisFile : other.isFile (hostPath path) = host.isFile (hostPath path))
    (htext : host.isFile (hostPath path) = .ok true →
      other.readText (hostPath path) = host.readText (hostPath path)) :
    inspect other sandbox path = inspect host sandbox path := by
  simp only [inspect, hallowed, hexists, hisFile]
  cases hfile : host.isFile (hostPath path) with
  | error fault => rfl
  | ok file =>
      cases file with
      | false => rfl
      | true => rw [htext hfile]

theorem read_of_find_error {fault : Fault} (h : find host s.sandbox name = .error fault) :
    (s.read host sourceKind name).1 = (s.conclude name (.error fault)).1 ∧
      ∀ text, (s.read host sourceKind name).1 ≠ .ok ⟨true, text⟩ := by
  have hread : (s.read host sourceKind name).1 = (s.conclude name (.error fault)).1 := by
    simp only [read, if_true, load, h]
  refine ⟨hread, fun text => ?_⟩
  rw [hread]
  cases fault <;> simp [conclude]

theorem read_of_find_loaded (h : find host s.sandbox name = .ok (.loaded path text)) :
    s.read host sourceKind name =
      (.ok ⟨true, text⟩, { s with registry := s.registry.set name text },
        [.readStarted (some name), .readComplete name path text.length]) := by
  simp only [read, if_true, load, h, conclude]

end Session

end SourceLoader

/-! ## Containment -/

namespace SourceLoader

open SourceLoader.Path

namespace Session

variable {host : Host} {s : Session} {name text : Text}

theorem find_eq_loaded_of_read (h : (s.read host sourceKind name).1 = .ok ⟨true, text⟩) :
    ∃ path, find host s.sandbox name = .ok (.loaded path text) := by
  simp only [read, if_true, load] at h
  cases hfind : find host s.sandbox name with
  | error fault => cases fault <;> simp [hfind, conclude] at h
  | ok finding =>
      cases finding with
      | loaded path text' =>
          obtain rfl : text' = text := by simpa [hfind, conclude] using h
          exact ⟨path, rfl⟩
      | outside | notFound | notRegular => simp [hfind, conclude] at h

/-- A canonical directory that is above the path of a place in writing is above the place in the
tree. -/
theorem exists_above_of_isBelow (hposix : host.platform = .posix) {location : Location}
    {directory top : Text} {isDirectory : Bool} (hclear : host.tree.Clear location)
    (hshort : (Location.path location).utf8Length < Host.pathLimit)
    (htop : host.canonicalize directory true = .ok top)
    (hbelow : isBelow .posix top (render [] location isDirectory) = .ok true) :
    ∃ above, host.lookup true top = .ok (.existing above) ∧
      host.tree.isDirectoryAt above = true ∧ above <+: location ∧ above ≠ location := by
  obtain ⟨name, above, isDirectory', hname, hnamed, rfl⟩ :=
    Host.isCanonical_of_canonicalize hposix htop
  rw [isBelow_render hname (.inl rfl) hnamed hclear.named] at hbelow
  obtain ⟨rfl, hprefix, hne⟩ : name = [] ∧ above <+: location ∧ above ≠ location := by
    simpa using hbelow
  have hdir := hclear.get?_of_prefix hprefix hne
  rw [render_eq, List.nil_append]
  exact ⟨above, host.lookup_marked (hclear.of_prefix hprefix) hdir _
    (Nat.lt_of_le_of_lt (Location.utf8Length_marked_le hprefix hne _) hshort),
    by simp [Tree.isDirectoryAt, hdir, Entry.isDirectory], hprefix, hne⟩

/-- What a read gives was in a file, and the path of the file lies below a directory of the
boundary. If the links of the path could be resolved to the end, the file itself lies below the
directory that the canonical form of the boundary entry leads to. -/
theorem read_contained (hposix : host.platform = .posix)
    (h : (s.read host sourceKind name).1 = .ok ⟨true, text⟩) :
    ∃ root path location bytes,
      Chosen host (withoutScheme name) s.sandbox.searchPrefixes root path ∧
      host.lookup true (hostPath path) = .ok (.existing location) ∧
      host.tree.get? location = some (.file bytes false) ∧ Text.Utf8.decode bytes = .ok text ∧
      ∃ directory ∈ s.sandbox.boundary, ∃ top,
        host.canonicalize directory true = .ok top ∧ isBelow .posix top path = .ok true ∧
        (host.Resolves (joinSearchPath root (withoutScheme name)) →
          ∃ above, host.lookup true top = .ok (.existing above) ∧
            host.tree.isDirectoryAt above = true ∧ above <+: location ∧ above ≠ location) := by
  obtain ⟨found, hfind⟩ := find_eq_loaded_of_read h
  rw [find_eq] at hfind
  obtain ⟨path, hcandidate, hinspect⟩ := bind_eq_ok.1 hfind
  obtain ⟨rfl, hallowed, hisFile, hread⟩ := inspect_eq_loaded hinspect
  obtain ⟨root, hchosen⟩ :=
    exists_chosen_of_findCandidate (by simp [Sandbox.searchPrefixes]) hcandidate
  obtain ⟨directory, hmem, top, htop, hbelow⟩ := Sandbox.exists_of_liesBelowAny hallowed
  obtain ⟨location, bytes, denied, hlookup, hfile⟩ := Host.file_of_isFile hisFile
  obtain ⟨rfl, hdecode⟩ := Host.file_of_readText hlookup hfile hread
  rw [hposix] at hbelow
  refine ⟨root, found, location, bytes, hchosen, hlookup, hfile, hdecode, directory, hmem, top,
    htop, hbelow, fun hresolves => ?_⟩
  -- Without links on the way, opening the path leads to the place that was compared.
  obtain ⟨before, after, -, -, hcanonical, -⟩ := hchosen
  obtain ⟨place, isDirectory, hnamed, hunlinked, rfl⟩ :=
    Host.exists_location_of_canonicalize hposix hresolves hcanonical
  rw [hostPath, toText_ofText_render hnamed] at hlookup
  obtain ⟨rfl, hclear⟩ := Host.eq_of_lookup_path hunlinked hnamed hlookup
  exact exists_above_of_isBelow hposix hclear (Host.short_of_lookup hlookup) htop hbelow

def guarded : Host where
  platform := .posix
  tree := ⟨[(["secret".toList], .file [83] false), (["srv".toList], .directory false),
    (["srv".toList, "a".toList], .directory false),
    (["srv".toList, "a".toList, "b".toList], .file [66] false),
    (["srv".toList, "a".toList, "l".toList], .link "/secret".toList),
    (["srv".toList, "a".toList, "m".toList], .link "../a/./b".toList)]⟩
  workDir := some ['/']

def below (directory : Text) : Session where
  sandbox := ⟨directory, [], []⟩
  registry := .empty

theorem read_contained_guarded :
    ((below "/srv/a".toList).read guarded sourceKind "m".toList).1 = .ok ⟨true, ['B']⟩ ∧
      ∃ location bytes, guarded.tree.get? location = some (.file bytes false) ∧
        Text.Utf8.decode bytes = .ok ['B'] ∧
        ∃ directory ∈ (below "/srv/a".toList).sandbox.boundary, ∃ top above,
          guarded.canonicalize directory true = .ok top ∧
          guarded.lookup true top = .ok (.existing above) ∧
          above <+: location ∧ above ≠ location := by
  have hread : ((below "/srv/a".toList).read guarded sourceKind "m".toList).1 =
      .ok ⟨true, ['B']⟩ := by cbv
  obtain ⟨root, path, location, bytes, hchosen, -, hfile, hdecode, directory, hmem, top, htop, -,
    h⟩ := read_contained rfl hread
  have hroot : root = "/srv/a".toList := by
    simpa [below, Sandbox.searchPrefixes] using hchosen.mem
  have hresolves : guarded.Resolves (joinSearchPath "/srv/a".toList (withoutScheme "m".toList)) :=
    ⟨['/'], ⟨"/srv/a/b".toList, true, [("/srv/a/m".toList, some "/srv/a/b".toList),
      ("/srv/a/m".toList, none)]⟩, by cbv, by cbv, by cbv, rfl⟩
  obtain ⟨above, habove, -, hprefix, hne⟩ := h (hroot ▸ hresolves)
  exact ⟨hread, location, bytes, hfile, hdecode, directory, hmem, top, above, htop, habove, hprefix,
    hne⟩

/-- Under a network root links are left alone, so a link below the directory leads out of it. -/
theorem read_not_contained_of_network_root :
    (Sandbox.build guarded "//srv/a".toList [] []).1 = .ok (below "//srv/a".toList).sandbox ∧
      ((below "//srv/a".toList).read guarded sourceKind "l".toList).1 = .ok ⟨true, ['S']⟩ ∧
      guarded.lookup true (hostPath "//srv/a/l".toList) = .ok (.existing ["secret".toList]) ∧
      ∀ directory ∈ (below "//srv/a".toList).sandbox.boundary, ∀ top above,
        guarded.canonicalize directory true = .ok top →
          guarded.lookup true top = .ok (.existing above) → ¬ above <+: ["secret".toList] := by
  refine ⟨by cbv, by cbv, by cbv, ?_⟩
  intro directory hmem top above htop habove
  have hdirectory : directory = "//srv/a".toList := by
    simpa [below, Sandbox.boundary] using hmem
  have hcanonical : guarded.canonicalize "//srv/a".toList true = .ok "//srv/a".toList := by cbv
  have hlookup : guarded.lookup true "//srv/a".toList =
      .ok (.existing ["srv".toList, "a".toList]) := by cbv
  rw [hdirectory] at htop
  obtain rfl := Except.ok.inj (htop.symm.trans hcanonical)
  obtain rfl := Place.existing.inj (Except.ok.inj (habove.symm.trans hlookup))
  decide

end Session

end SourceLoader
