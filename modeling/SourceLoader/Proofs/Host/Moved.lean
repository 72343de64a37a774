import Mathlib
import SourceLoader.Proofs.Host.Access
import SourceLoader.Proofs.Host.Retraction

/-!
The same host seen from two working directories. The working directory is asked for whenever a path
is canonicalized, but for a path with a root the answer makes no difference as long as it lies below
the one root of the host. An absolute path is looked up, and its links are resolved, without the
working directory.

Absolute paths and the working directory. A path with a root is canonicalized without it. The one
absolute path without a root is a network root with nothing behind it: it is put in the place of the
root of the working directory, so its canonical form tells what the working directory is.
-/

namespace SourceLoader.Host

open SourceLoader.Path

/-- Whether two hosts differ at most in the working directory, and both working directories lead
below the one root. -/
structure Moved (host other : Host) : Prop where
  posix : host.platform = .posix
  platform : other.platform = host.platform
  tree : other.tree = host.tree
  work : ∃ workDir, host.canonicalWorkDir = .ok workDir ∧ HasOneSlash workDir
  otherWork : ∃ workDir, other.canonicalWorkDir = .ok workDir ∧ HasOneSlash workDir

variable {host other : Host} {path : Text}

theorem Moved.lookup (h : host.Moved other) (followLast : Bool) (habs : isAbsolute path = true) :
    other.lookup followLast path = host.lookup followLast path := by
  rw [lookup_of_isAbsolute other followLast habs, lookup_of_isAbsolute host followLast habs, h.tree]

theorem Moved.entryAt (h : host.Moved other) (place : Except Errno Place) :
    other.entryAt place = host.entryAt place := by
  simp only [Host.entryAt, h.tree]

theorem Moved.linkTarget? (h : host.Moved other) (habs : isAbsolute path = true) :
    other.linkTarget? path = host.linkTarget? path := by
  simp only [Host.linkTarget?, h.lookup false habs, h.entryAt]

theorem Moved.ask (h : host.Moved other) (habs : isAbsolute path = true)
    (question : Entry → Bool) : other.ask path question = host.ask path question := by
  simp only [Host.ask, Host.stat, h.lookup true habs, h.entryAt]

theorem Moved.readText (h : host.Moved other) (habs : isAbsolute path = true) :
    other.readText path = host.readText path := by
  simp only [Host.readText, Host.readBytes, h.lookup true habs, h.entryAt]

theorem Moved.rebuilt (h : host.Moved other) (habs : isAbsolute path = true) :
    other.rebuilt path = host.rebuilt path := by
  obtain ⟨components, -, hbegin⟩ := beginRebuild_of_isAbsolute habs []
  have hstart : isAbsolute (beginRebuild [] path).1 = true := by
    rw [hbegin]
    rfl
  rw [Host.rebuilt, Host.rebuilt, h.tree]
  exact rebuild_congr (P := (isAbsolute · = true)) rfl
    (fun path hpath => by rw [isAbsolute_above, hpath])
    (fun path name hpath _ => isAbsolute_append_of_left hpath name)
    (fun _ hpath => h.linkTarget? hpath) hstart (slash_not_mem_beginRebuild [] path)
    (Seen.known_nil _)

theorem Moved.realPath (h : host.Moved other) (habs : isAbsolute path = true) :
    other.realPath path = host.realPath path := by
  rw [realPath_posix (h.platform.trans h.posix), realPath_posix h.posix, h.rebuilt habs]
  cases hr : host.rebuilt path with
  | error fault => rfl
  | ok r => simp only [isAbsolute_rebuilt habs hr, if_true]

theorem Moved.canonicalize (h : host.Moved other) (hrooted : (split .posix path).rooted = true)
    (resolve : Bool) : other.canonicalize path resolve = host.canonicalize path resolve := by
  obtain ⟨workDir, hwork, hslash⟩ := h.work
  obtain ⟨workDir', hwork', hslash'⟩ := h.otherWork
  have hanchor : ∀ {w}, HasOneSlash w → anchor .posix w path = path := by
    intro w hw
    rw [anchor_of_rooted hrooted, hw.rootName_eq]
    simp
  have hposix := h.platform.trans h.posix
  cases resolve with
  | false =>
      rw [canonicalize_lexical hposix hwork', canonicalize_lexical h.posix hwork, hanchor hslash,
        hanchor hslash']
  | true =>
      have hresolved : other.resolved path = host.resolved path := by
        rw [resolved_of_workDir hposix hwork', resolved_of_workDir h.posix hwork, hanchor hslash,
          hanchor hslash', h.realPath (isAbsolute_of_rooted hrooted)]
      rw [canonicalize_resolved hposix, canonicalize_resolved h.posix, hresolved]

end SourceLoader.Host

/-! ## Bare network roots -/

namespace SourceLoader

open SourceLoader.Path Location

namespace Path

theorem named_pushComponent {collected : List Text} (h : Named collected) {component : Text}
    (hslash : '/' ∉ component) : Named (pushComponent true collected component) := by
  unfold pushComponent
  split
  · exact h
  · next hskip =>
    obtain ⟨hne, hdot⟩ := not_or.1 hskip
    split
    · cases collected with
      | nil => exact named_nil
      | cons last before =>
          obtain ⟨hlast, hbefore⟩ := named_cons.1 h
          simpa [hlast.ne_dotDot] using hbefore
    · next hdd => exact named_cons.2 ⟨⟨hne, hslash, hdot, hdd⟩, h⟩

theorem named_foldl_pushComponent {components collected : List Text}
    (hslash : ∀ c ∈ components, '/' ∉ c) (h : Named collected) :
    Named (components.foldl (pushComponent true) collected) := by
  induction components generalizing collected with
  | nil => exact h
  | cons component components ih =>
      obtain ⟨hhead, htail⟩ := List.forall_mem_cons.1 hslash
      exact ih htail (named_pushComponent h hhead)

theorem leadingSlashes_cases {path : Text} (h : isAbsolute path = true) :
    leadingSlashes path = ['/'] ∨ leadingSlashes path = ['/', '/'] := by
  obtain ⟨rest, rfl⟩ := isAbsolute_iff.1 h
  unfold leadingSlashes
  split <;> simp_all

theorem exists_location_of_normalize {path : Text} (h : HasOneSlash (normalize path)) :
    ∃ location, Named location ∧ normalize path = Location.path location := by
  have habs : isAbsolute path = true := isAbsolute_normalize path ▸ h.isAbsolute
  have hnamed : Named ((path.splitOn '/').foldl (pushComponent true) []) :=
    named_foldl_pushComponent (fun _ hc => Text.not_mem_of_mem_splitOn hc) named_nil
  rcases leadingSlashes_cases habs with hlead | hlead
  · refine ⟨_, fun name hname => hnamed name (List.mem_reverse.1 hname), ?_⟩
    simp [normalize, hlead, Location.path]
  · obtain ⟨rest, hnormal, hrest⟩ := h
    simp only [normalize, hlead] at hnormal
    obtain rfl := by simpa using hnormal
    simp at hrest

end Path

namespace Host

variable {host other : Host} {path workDir : Text}

theorem exists_location_of_canonicalWorkDir (hposix : host.platform = .posix)
    (hwork : host.canonicalWorkDir = .ok workDir) (hslash : HasOneSlash workDir) :
    ∃ location, Named location ∧ workDir = Location.path location := by
  rw [canonicalWorkDir_posix hposix] at hwork
  split at hwork
  · cases hwork
  · obtain ⟨r, -, ⟨-, rfl⟩ | ⟨-, cwd, -, rfl⟩⟩ := realPath_eq_ok hposix hwork
    · exact exists_location_of_normalize hslash
    · exact exists_location_of_normalize hslash

/-- A network root with nothing behind it is canonicalized to the working directory below that
root. -/
theorem canonicalize_of_isRootName (hposix : host.platform = .posix) {location : Location}
    (hwork : host.canonicalWorkDir = .ok (Location.path location)) (hnamed : Named location)
    (hne : path ≠ []) (hroot : IsRootName path) :
    host.canonicalize path false = .ok (render path location true) := by
  have hname : rootName .posix (Location.path location) = [] :=
    (hasOneSlash_path hnamed).rootName_eq
  have hanchor : anchor .posix (Location.path location) path =
      path ++ (Location.path location ++ ['/']) := by
    rw [anchor_of_isRootName hne hroot, hname, List.append_assoc]
    rfl
  have hkept : rootName .posix (path ++ (Location.path location ++ ['/'])) = path :=
    rootName_append hroot hne (.inl rfl)
  have hsegments : (split .posix (path ++ (Location.path location ++ ['/']))).segments =
      location := by
    rw [segments_eq, hkept, List.drop_left, splitOn_concat_slash, List.filter_append,
      filter_splitOn_path hnamed]
    simp
  have hdirectory : (split .posix path).isDirectory = true := by
    simp [split, hroot.rootName_eq, hne, namesDirectory]
  have hrooted := rooted_anchor (hasOneSlash_path hnamed) path
  rw [canonicalize_lexical hposix hwork, if_pos hrooted, hanchor, hkept, hsegments,
    walkFromRoot_of_named hnamed, hdirectory]

/-- An absolute path always has a canonical form, and that form is the same wherever it is seen
from, unless the path is a network root and nothing more. The form of such a root is the same only
where the working directory is. -/
theorem canonicalize_absolute_moved (h : host.Moved other) (habs : isAbsolute path = true) :
    (∃ canonical, host.canonicalize path false = .ok canonical) ∧
      (∃ canonical, other.canonicalize path false = .ok canonical) ∧
      (other.canonicalize path false = host.canonicalize path false ↔
        (IsRootName path → other.canonicalWorkDir = host.canonicalWorkDir)) := by
  obtain ⟨workDir, hwork, hslash⟩ := h.work
  obtain ⟨workDir', hwork', hslash'⟩ := h.otherWork
  have hposix' := h.platform.trans h.posix
  obtain ⟨name, segments, isDirectory, -, -, hform, -⟩ :=
    exists_canonicalize h.posix hwork hslash path
  obtain ⟨name', segments', isDirectory', -, -, hform', -⟩ :=
    exists_canonicalize hposix' hwork' hslash' path
  refine ⟨⟨_, hform⟩, ⟨_, hform'⟩, ?_⟩
  by_cases hroot : IsRootName path
  · have hne : path ≠ [] := by
      rintro rfl
      cases habs
    obtain ⟨location, hnamed, rfl⟩ := exists_location_of_canonicalWorkDir h.posix hwork hslash
    obtain ⟨location', hnamed', rfl⟩ := exists_location_of_canonicalWorkDir hposix' hwork' hslash'
    rw [canonicalize_of_isRootName h.posix hwork hnamed hne hroot,
      canonicalize_of_isRootName hposix' hwork' hnamed' hne hroot, hwork, hwork']
    constructor
    · intro hsame _
      have hsplit := congrArg (split .posix) (Except.ok.inj hsame)
      rw [split_render hroot hnamed', split_render hroot hnamed] at hsplit
      rw [show location' = location from congrArg Parts.segments hsplit]
    · intro hsame
      rw [path_injective hnamed' hnamed (Except.ok.inj (hsame hroot))]
  · have hrooted := (rooted_iff habs).2 hroot
    exact ⟨fun _ hpath => absurd hpath hroot, fun _ => h.canonicalize hrooted false⟩

def upstairs : Host where
  platform := .posix
  tree := ⟨[(["a".toList], .directory false), (["b".toList], .directory false),
    (["l".toList], .link "a/../b/".toList)]⟩
  workDir := some "/l".toList

def downstairs : Host := { upstairs with workDir := some "/b/../a".toList }

theorem moved_downstairs : upstairs.Moved downstairs where
  posix := rfl
  platform := rfl
  tree := rfl
  work := ⟨"/b".toList, by cbv, ⟨"b".toList, rfl, by decide⟩⟩
  otherWork := ⟨"/a".toList, by cbv, ⟨"a".toList, rfl, by decide⟩⟩

/-- Below a network root nothing is asked about the working directory, even where the path goes up
to the root. -/
theorem canonicalize_absolute_moved_network :
    isAbsolute "//h/x/../../y/".toList = true ∧
      upstairs.canonicalize "//h/x/../../y/".toList false = .ok "//h/y/".toList ∧
      downstairs.canonicalize "//h/x/../../y/".toList false = .ok "//h/y/".toList := by
  have habs : isAbsolute "//h/x/../../y/".toList = true := rfl
  have hform : upstairs.canonicalize "//h/x/../../y/".toList false = .ok "//h/y/".toList := by cbv
  have hbehind : ¬ IsRootName "//h/x/../../y/".toList := (rooted_iff habs).1 rfl
  obtain ⟨-, -, hsame⟩ := canonicalize_absolute_moved moved_downstairs habs
  exact ⟨habs, hform, (hsame.2 fun hroot => absurd hroot hbehind).trans hform⟩

/-- A network root and nothing more lands in the working directory, wherever that is. -/
theorem canonicalize_absolute_not_constant :
    upstairs.Moved downstairs ∧
      upstairs.lookup true "/l".toList = .ok (.existing ["b".toList]) ∧
      downstairs.lookup true "/b/../a".toList = .ok (.existing ["a".toList]) ∧
      isAbsolute "//h".toList = true ∧
      upstairs.canonicalize "//h".toList false = .ok "//h/b/".toList ∧
      downstairs.canonicalize "//h".toList false = .ok "//h/a/".toList :=
  ⟨moved_downstairs, by cbv, by cbv, rfl, by cbv, by cbv⟩

end Host

end SourceLoader
