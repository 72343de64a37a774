import Mathlib
import SourceLoader.Proofs.Host.Canonicalize
import SourceLoader.Proofs.Path.Anchor

/-!
Canonicalizing without a look at links. Below the one root of the host every text is given a
canonical form, and a canonical path is its own: canonicalizing is a retraction onto the canonical
paths.

Canonicalizing twice. A canonical path under a network root is left as it is, and so is the path of
a place on the way to which the host knows no link. Every path whose links can be resolved to the
end has a canonical form of one of these two kinds, so canonicalizing that form again changes
nothing. Only where a loop of links is met can a link be left in the canonical form.
-/

namespace SourceLoader.Host

open SourceLoader.Path Location

variable {host : Host} {workDir : Text}

theorem canonicalize_lexical (hposix : host.platform = .posix)
    (hwork : host.canonicalWorkDir = .ok workDir) (path : Text) :
    host.canonicalize path false =
      if (split .posix (anchor .posix workDir path)).rooted then
        .ok (render (rootName .posix (anchor .posix workDir path))
          (walkFromRoot (split .posix (anchor .posix workDir path)).segments)
          (split .posix path).isDirectory)
      else .error (.violation (.anchoredPathNotRooted (anchor .posix workDir path))) := by
  unfold canonicalize
  rw [hwork, hposix]
  exact canonicalOfAnchored_posix workDir _ _

/-- What canonicalizing gives is canonical, wherever the working directory lies. -/
theorem isCanonical_of_lexical (hposix : host.platform = .posix) {path canonical : Text}
    (h : host.canonicalize path false = .ok canonical) : IsCanonical canonical := by
  cases hwork : host.canonicalWorkDir with
  | error fault => simp [canonicalize, hwork, bind, Except.bind] at h
  | ok workDir =>
      rw [canonicalize_lexical hposix hwork] at h
      split at h
      · exact ⟨_, _, _, isRootName_rootName _, named_walkFromRoot _, (Except.ok.inj h).symm⟩
      · cases h

theorem isAbsolute_of_canonicalize_dot (hposix : host.platform = .posix)
    (hwork : host.canonicalWorkDir = .ok workDir) {canonical : Text}
    (h : host.canonicalize dot false = .ok canonical) : isAbsolute workDir = true := by
  rw [canonicalize_lexical hposix hwork] at h
  split at h
  · next hrooted =>
    have habs := isAbsolute_of_rooted hrooted
    rw [anchor_of_relative (by decide) (by decide)] at habs
    by_contra hrel
    obtain ⟨c, rest, rfl⟩ := List.exists_cons_of_ne_nil (canonicalWorkDir_ne_nil hposix hwork)
    have hc : [c].getLast? ≠ some '/' := by simpa [isAbsolute] using hrel
    rw [← List.singleton_append, trimSlashes_append hc] at habs
    exact hrel habs
  · cases h

theorem canonicalize_render (hposix : host.platform = .posix)
    (hwork : host.canonicalWorkDir = .ok workDir) (hslash : HasOneSlash workDir) {name : Text}
    {segments : List Text} (hname : IsRootName name) (hnamed : Named segments)
    (isDirectory : Bool) :
    host.canonicalize (render name segments isDirectory) false =
      .ok (render name segments isDirectory) := by
  have hanchor := anchor_render hname hnamed isDirectory fun _ => hslash.rootName_eq
  rw [canonicalize_lexical hposix hwork, hanchor, split_render hname hnamed, if_pos rfl,
    rootName_render hname hnamed, walkFromRoot_of_named hnamed, render_root_or]

theorem canonicalize_eq_self (hposix : host.platform = .posix)
    (hwork : host.canonicalWorkDir = .ok workDir) (hslash : HasOneSlash workDir) {path : Text}
    (h : IsCanonical path) : host.canonicalize path false = .ok path := by
  obtain ⟨name, segments, isDirectory, hname, hnamed, rfl⟩ := h
  exact canonicalize_render hposix hwork hslash hname hnamed isDirectory

/-- Whether the last component of what follows the root name of a path stands for a directory. The
empty path has no such component. -/
def EndsInDirectory (path : Text) : Prop :=
  path ≠ [] ∧
    namesDirectory (((path.drop (rootName .posix path).length).splitOn '/').getLastD []) = true

theorem isDirectory_iff (path : Text) :
    (split .posix path).isDirectory = true ↔ EndsInDirectory path := by
  simp only [split, Platform.generic_posix, EndsInDirectory, Bool.and_eq_true]
  exact and_congr decide_eq_true_iff Iff.rfl

theorem endsInDirectory_of_namesDirectory {path : Text} (hne : path ≠ [])
    (h : namesDirectory ((path.splitOn '/').getLastD []) = true) : EndsInDirectory path := by
  refine ⟨hne, ?_⟩
  by_cases hname : rootName .posix path = []
  · simpa [hname] using h
  · obtain ⟨rest, hsplit, hrest⟩ := exists_eq_rootName_append hname
    have hdrop : (rootName .posix path ++ rest).drop (rootName .posix path).length = rest :=
      List.drop_left
    rw [← hsplit] at hdrop
    rw [hdrop]
    rcases hrest with rfl | hrest
    · rfl
    · obtain ⟨body, rfl⟩ := isAbsolute_iff.1 hrest
      rw [hsplit, getLastD_splitOn_append_slash] at h
      rwa [← List.nil_append ('/' :: body), getLastD_splitOn_append_slash]

/-- Every text has a canonical form, which ends in a slash where nothing stands behind the root or
the path as given ends in a directory. -/
theorem exists_canonicalize (hposix : host.platform = .posix)
    (hwork : host.canonicalWorkDir = .ok workDir) (hslash : HasOneSlash workDir) (path : Text) :
    ∃ name segments isDirectory, IsRootName name ∧ Named segments ∧
      host.canonicalize path false = .ok (render name segments isDirectory) ∧
      ((render name segments isDirectory).getLast? = some '/' ↔
        segments = [] ∨ EndsInDirectory path) := by
  have hnamed := named_walkFromRoot (anchor .posix workDir path)
  refine ⟨_, _, (split .posix path).isDirectory, isRootName_rootName (anchor .posix workDir path),
    hnamed, ?_, ?_⟩
  · rw [canonicalize_lexical hposix hwork, if_pos (rooted_anchor hslash path)]
  · rw [getLast?_render _ hnamed, isDirectory_iff]

/-- Where the working directory lies below the one root of the host, canonicalizing gives every text
a canonical form and leaves the canonical paths alone. So doing it twice is doing it once, and the
canonical paths are just what it gives. -/
theorem canonicalize_retraction (hposix : host.platform = .posix)
    (hwork : host.canonicalWorkDir = .ok workDir) (hslash : HasOneSlash workDir) :
    (∀ path, ∃ name segments isDirectory, IsRootName name ∧ Named segments ∧
        host.canonicalize path false = .ok (render name segments isDirectory) ∧
        ((render name segments isDirectory).getLast? = some '/' ↔
          segments = [] ∨ EndsInDirectory path)) ∧
      (∀ path, IsCanonical path → host.canonicalize path false = .ok path) ∧
      (∀ path canonical, host.canonicalize path false = .ok canonical →
        host.canonicalize canonical false = .ok canonical) ∧
      ∀ canonical, (∃ path, host.canonicalize path false = .ok canonical) ↔
        IsCanonical canonical := by
  have hself : ∀ path, IsCanonical path → host.canonicalize path false = .ok path :=
    fun _ h => canonicalize_eq_self hposix hwork hslash h
  refine ⟨exists_canonicalize hposix hwork hslash, hself, ?_, ?_⟩
  · intro path canonical h
    exact hself canonical (isCanonical_of_lexical hposix h)
  · intro canonical
    constructor
    · rintro ⟨path, h⟩
      exact isCanonical_of_lexical hposix h
    · intro h
      exact ⟨canonical, hself canonical h⟩

def linkedWorkDir : Host where
  platform := .posix
  tree := ⟨[(["srv".toList], .directory false), (["srv".toList, "a".toList], .directory false),
    (["w".toList], .link "srv/./a".toList)]⟩
  workDir := some "/w".toList

theorem canonicalize_retraction_linked :
    linkedWorkDir.canonicalWorkDir = .ok "/srv/a".toList ∧ HasOneSlash "/srv/a".toList ∧
      linkedWorkDir.canonicalize "//host".toList false = .ok "//host/srv/a/".toList ∧
      linkedWorkDir.canonicalize "//host/srv/a/".toList false = .ok "//host/srv/a/".toList ∧
      IsCanonical "//host/srv/a/".toList := by
  have hwork : linkedWorkDir.canonicalWorkDir = .ok "/srv/a".toList := by cbv
  have hslash : HasOneSlash "/srv/a".toList := ⟨"srv/a".toList, rfl, by decide⟩
  have hform : linkedWorkDir.canonicalize "//host".toList false = .ok "//host/srv/a/".toList := by
    cbv
  obtain ⟨-, -, htwice, himage⟩ := canonicalize_retraction rfl hwork hslash
  exact ⟨hwork, hslash, hform, htwice _ _ hform, (himage _).1 ⟨_, hform⟩⟩

end SourceLoader.Host

/-! ## Canonicalizing twice -/

namespace SourceLoader.Host

open SourceLoader.Path Location

variable {host : Host} {workDir : Text}

/-- Whether resolving the links of a path meets a loop. -/
def Loops (host : Host) (path : Text) : Prop :=
  ∃ workDir r, host.canonicalWorkDir = .ok workDir ∧
    isUnc .posix (anchor .posix workDir path) = false ∧
    host.rebuilt (anchor .posix workDir path) = .ok r ∧ r.complete = false

theorem rebuild_of_unlinked {here names : Location} (hunlinked : host.Unlinked (here ++ names))
    (hnamed : Named (here ++ names)) (depth : Nat) (rest : List Text) (seen : Seen) :
    host.rebuild depth (path here) (names ++ rest) seen =
      host.rebuild depth (path (here ++ names)) rest seen := by
  induction names generalizing here with
  | nil => simp
  | cons name names ih =>
      have hsplit : here ++ name :: names = here ++ [name] ++ names := by simp
      rw [hsplit] at hunlinked hnamed ⊢
      obtain ⟨hhere, hname⟩ := named_append.1 (named_append.1 hnamed).1
      have hname : IsName name := hname name (by simp)
      have hnext := hunlinked (here ++ [name]) (List.prefix_append _ _) (by simp)
      rw [← append_path hhere hname] at hnext
      rw [List.cons_append, rebuild_plain hname hnext, append_path hhere hname,
        ih hunlinked hnamed]

theorem splitOn_marked {location : Location} (h : Named location) (isDirectory : Bool) :
    ∃ slash : List Text, (slash = [] ∨ slash = [[]]) ∧
      (path location ++ mark location isDirectory).splitOn '/' = [] :: (location ++ slash) := by
  by_cases hl : location = []
  · subst hl
    exact ⟨[[]], .inr rfl, by simpa [mark] using splitOn_path_nil⟩
  · cases isDirectory with
    | false => exact ⟨[], .inl rfl, by simp [mark, splitOn_path h hl]⟩
    | true =>
        refine ⟨[[]], .inr rfl, ?_⟩
        have hmark : mark location true = ['/'] := by simp [mark, hl]
        rw [hmark, splitOn_concat_slash, splitOn_path h hl, List.cons_append]

theorem rebuilt_of_unlinked {location : Location} (hunlinked : host.Unlinked location)
    (hnamed : Named location) (isDirectory : Bool) :
    host.rebuilt (path location ++ mark location isDirectory) =
      .ok ⟨path location, true, []⟩ := by
  obtain ⟨slash, hslash, hsplit⟩ := splitOn_marked hnamed isDirectory
  have habs : isAbsolute (path location ++ mark location isDirectory) = true := rfl
  obtain ⟨components, hcomponents, hbegin⟩ := beginRebuild_of_isAbsolute habs []
  rw [hsplit] at hcomponents
  obtain ⟨-, rfl⟩ := List.cons.inj hcomponents
  have hdown : host.rebuild host.tree.linkCount (path []) (location ++ slash) [] =
      host.rebuild host.tree.linkCount (path location) slash [] :=
    @rebuild_of_unlinked host [] location hunlinked hnamed host.tree.linkCount slash []
  rw [rebuilt, hbegin]
  refine hdown.trans ?_
  rcases hslash with rfl | rfl
  · rw [rebuild]
  · rw [rebuild_skip (.inl rfl), rebuild]

theorem canonicalize_of_unlinked (hposix : host.platform = .posix)
    (hwork : host.canonicalWorkDir = .ok workDir) (hroot : rootName .posix workDir = [])
    {location : Location} (hunlinked : host.Unlinked location) (hnamed : Named location)
    (isDirectory : Bool) :
    host.canonicalize (render [] location isDirectory) true =
      .ok (render [] location isDirectory) := by
  have hname : IsRootName [] := .inl rfl
  have hunc : isUnc .posix (render [] location isDirectory) = false := by
    rw [isUnc_posix, rootName_render hname hnamed]
    rfl
  have hreal : host.realPath (render [] location isDirectory) = .ok (path location) := by
    rw [realPath_posix hposix, render_eq, List.nil_append,
      rebuilt_of_unlinked hunlinked hnamed]
    simp [normalize_path hnamed]
  have hresolved : host.resolved (render [] location isDirectory) = .ok (path location) := by
    simpa [resolved_of_workDir hposix hwork, anchor_render hname hnamed isDirectory fun _ => hroot,
      hunc] using hreal
  rw [canonicalize_of_resolved hposix hnamed hresolved, split_render hname hnamed, render_root_or]

theorem canonicalize_of_network (hposix : host.platform = .posix)
    (hwork : host.canonicalWorkDir = .ok workDir) {name : Text} {segments : List Text}
    (hname : IsRootName name) (hne : name ≠ []) (hnamed : Named segments) (isDirectory : Bool) :
    host.canonicalize (render name segments isDirectory) true =
      .ok (render name segments isDirectory) := by
  have hroot := rootName_render hname hnamed isDirectory
  have hunc : isUnc .posix (render name segments isDirectory) = true := by
    simp [isUnc_posix, hroot, hne]
  have hresolved : host.resolved (render name segments isDirectory) =
      .ok (render name segments isDirectory) := by
    simp [resolved_of_workDir hposix hwork, hunc,
      anchor_render hname hnamed isDirectory fun h => absurd h hne]
  rw [canonicalize_resolved hposix, hresolved]
  simp only [split_render hname hnamed, hroot, walkFromRoot_of_named hnamed, render_root_or,
    if_true]

/-- A path that has a canonical form has a network root, or its links can be resolved to the end, or
a loop is met. -/
theorem resolves_or_loops (hposix : host.platform = .posix)
    (hwork : host.canonicalWorkDir = .ok workDir) {path canonical : Text}
    (h : host.canonicalize path true = .ok canonical) :
    isUnc .posix (anchor .posix workDir path) = true ∨ host.Resolves path ∨ host.Loops path := by
  cases hunc : isUnc .posix (anchor .posix workDir path) with
  | true => exact .inl rfl
  | false =>
      cases hr : host.rebuilt (anchor .posix workDir path) with
      | error fault =>
          have hresolved : host.resolved path = .error fault := by
            simp [resolved_of_workDir hposix hwork, hunc, realPath_posix hposix, hr]
          rw [canonicalize_resolved hposix, hresolved] at h
          cases h
      | ok r =>
          cases hcomplete : r.complete with
          | true => exact .inr (.inl ⟨workDir, r, hwork, hunc, hr, hcomplete⟩)
          | false => exact .inr (.inr ⟨workDir, r, hwork, hunc, hr, hcomplete⟩)

theorem rootName_of_canonicalize_network (hposix : host.platform = .posix)
    (hwork : host.canonicalWorkDir = .ok workDir) {path canonical : Text}
    (hunc : isUnc .posix (anchor .posix workDir path) = true)
    (h : host.canonicalize path true = .ok canonical) :
    rootName .posix canonical = rootName .posix (anchor .posix workDir path) := by
  have hresolved : host.resolved path = .ok (anchor .posix workDir path) := by
    simp [resolved_of_workDir hposix hwork, hunc]
  rw [canonicalize_resolved hposix, hresolved] at h
  simp only at h
  split at h
  · rw [← Except.ok.inj h, rootName_render (isRootName_rootName _) (named_walkFromRoot _)]
  · cases h

theorem isUnc_anchor_eq_false (hposix : host.platform = .posix)
    (hwork : host.canonicalWorkDir = .ok workDir) {path : Text} {location : Location}
    {isDirectory : Bool} (hnamed : Named location)
    (h : host.canonicalize path true = .ok (render [] location isDirectory)) :
    isUnc .posix (anchor .posix workDir path) = false := by
  by_contra hunc
  have hroot := rootName_of_canonicalize_network hposix hwork (by simpa using hunc) h
  rw [rootName_render (.inl rfl) hnamed] at hroot
  simp [isUnc_posix, ← hroot] at hunc

theorem unlinked_of_resolves (hposix : host.platform = .posix) {path : Text} {location : Location}
    {isDirectory : Bool} (hnamed : Named location) (hres : host.Resolves path)
    (h : host.canonicalize path true = .ok (render [] location isDirectory)) :
    host.Unlinked location := by
  obtain ⟨place, slash, hplace, hclear, heq⟩ := exists_location_of_canonicalize hposix hres h
  have hsegments := congrArg (fun p => (split .posix p).segments) heq
  simp only [split_render (.inl rfl) hnamed, split_render (.inl rfl) hplace] at hsegments
  exact hsegments ▸ hclear

/-- Canonicalizing a canonical form again changes nothing, unless a loop of links has been met and
has left a link in it. -/
theorem canonicalize_canonicalize (hposix : host.platform = .posix) {path canonical : Text}
    (h : host.canonicalize path true = .ok canonical) :
    host.canonicalize canonical true = .ok canonical ∨
      host.Loops path ∧ ∃ (location : Location) (isDirectory : Bool), location.Named ∧
        canonical = render [] location isDirectory ∧ ¬ host.Unlinked location := by
  obtain ⟨name, location, isDirectory, hname, hnamed, rfl⟩ := isCanonical_of_canonicalize hposix h
  cases hwork : host.canonicalWorkDir with
  | error fault => simp [canonicalize, hwork, bind, Except.bind] at h
  | ok workDir =>
      by_cases hne : name = []
      · subst hne
        have hunc := isUnc_anchor_eq_false hposix hwork hnamed h
        have hroot : rootName .posix workDir = [] := by
          by_contra hroot
          simp [isUnc_posix, rootName_anchor_ne_nil hroot path] at hunc
        by_cases hunlinked : host.Unlinked location
        · exact .inl (canonicalize_of_unlinked hposix hwork hroot hunlinked hnamed isDirectory)
        · refine .inr ⟨?_, location, isDirectory, hnamed, rfl, hunlinked⟩
          rcases resolves_or_loops hposix hwork h with hnet | hres | hloops
          · rw [hunc] at hnet
            cases hnet
          · exact absurd (unlinked_of_resolves hposix hnamed hres h) hunlinked
          · exact hloops
      · exact .inl (canonicalize_of_network hposix hwork hname hne hnamed isDirectory)

def chainedWorkDir : Host where
  platform := .posix
  tree := ⟨[(["srv".toList], .directory false), (["srv".toList, "a".toList], .directory false),
    (["srv".toList, "up".toList], .link "../v/./a/..".toList), (["v".toList], .link "srv".toList)]⟩
  workDir := some "/v/a".toList

theorem canonicalize_canonicalize_chained :
    chainedWorkDir.canonicalize "../up/up/a/../x/".toList true = .ok "/srv/x/".toList ∧
      chainedWorkDir.canonicalize "/srv/x/".toList true = .ok "/srv/x/".toList := by
  have hform : chainedWorkDir.canonicalize "../up/up/a/../x/".toList true =
      .ok "/srv/x/".toList := by cbv
  have hwork : chainedWorkDir.canonicalWorkDir = .ok "/srv/a".toList := by cbv
  have hcomplete : (chainedWorkDir.rebuilt
      (anchor .posix "/srv/a".toList "../up/up/a/../x/".toList)).map Rebuilt.complete =
        .ok true := by cbv
  rcases canonicalize_canonicalize rfl hform with htwice | ⟨⟨workDir, r, hw, -, hr, hloop⟩, -⟩
  · exact ⟨hform, htwice⟩
  · obtain rfl := Except.ok.inj (hwork.symm.trans hw)
    rw [hr] at hcomplete
    simp [Except.map, hloop] at hcomplete

def descending : Host where
  platform := .posix
  tree := ⟨[(["d".toList], .link "d/x".toList)]⟩
  workDir := some ['/']

/-- A link that leads below itself makes the canonical form longer each time. -/
theorem canonicalize_not_idempotent :
    descending.canonicalize "/d".toList true = .ok "/d/x".toList ∧
      descending.canonicalize "/d/x".toList true = .ok "/d/x/x".toList :=
  ⟨by cbv, by cbv⟩

end SourceLoader.Host
