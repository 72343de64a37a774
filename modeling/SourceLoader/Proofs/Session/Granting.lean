import Mathlib
import SourceLoader.Proofs.Session.Failure
import SourceLoader.Proofs.Session.Invariant
import SourceLoader.Proofs.Session.Search

/-!
What a further directory does to a read that has succeeded. An include path is searched and compared
last, so it changes nothing. An allowed directory takes its place in increasing order, and can be
compared before the one that contains the file. That changes the read only where the new directory
cannot be canonicalized once its links are resolved: then the comparison stops there, and what it
fails with is what the read ends with.
-/

namespace SourceLoader

open SourceLoader.Path

namespace Host

variable {host : Host} {workDir path : Text} {fault : Fault}

/-- Seen from a working directory that is known, a canonical path has no canonical form only where
there is a NUL in it, or a network root and nothing more is left of it. -/
theorem fault_of_canonicalize (hposix : host.platform = .posix)
    (hwork : host.canonicalWorkDir = .ok workDir) (hpath : IsCanonical path)
    (h : host.canonicalize path true = .error fault) :
    fault = .embeddedNul ∨
      ∃ root, host.LeavesBareRoot path root ∧ fault = .violation (.anchoredPathNotRooted root) := by
  have hanchor := isAbsolute_anchor_of_rooted workDir hpath.rooted
  have hresolved := resolved_of_workDir hposix hwork path
  have habs : ∀ anchored, host.resolved path = .ok anchored → isAbsolute anchored = true := by
    intro anchored hres
    rw [hresolved] at hres
    split at hres
    · exact Except.ok.inj hres ▸ hanchor
    · exact isAbsolute_realPath hposix hanchor hres
  by_cases hrule : ∃ rule, fault = .violation rule
  · obtain ⟨rule, rfl⟩ := hrule
    obtain ⟨root, hleaves, rfl⟩ :=
      (canonicalize_eq_violation_iff_of_isAbsolute hposix habs).1 h
    exact .inr ⟨root, hleaves, rfl⟩
  · left
    rw [canonicalize_resolved hposix] at h
    split at h
    · next fault' hres =>
      obtain rfl := Except.error.inj h
      rw [hresolved] at hres
      split at hres
      · cases hres
      · exact fault_of_realPath_of_isAbsolute hposix hanchor hres
    · split at h
      · cases h
      · exact absurd ⟨_, (Except.error.inj h).symm⟩ hrule

end Host

namespace Sandbox

variable {host : Host} {s s' : Sandbox} {candidate directory : Text} {directories : List Text}

theorem liesBelowAny_append (h : liesBelowAny host candidate directories = .ok true)
    (more : List Text) : liesBelowAny host candidate (directories ++ more) = .ok true := by
  induction directories with
  | nil => cases h
  | cons directory rest ih =>
      obtain ⟨top, htop, h⟩ := bind_eq_ok.1 h
      obtain ⟨below, hbelow, h⟩ := bind_eq_ok.1 h
      refine bind_eq_ok.2 ⟨top, htop, bind_eq_ok.2 ⟨below, hbelow, ?_⟩⟩
      cases below with
      | true => rfl
      | false => exact ih h

/-- A path that lies below one of the directories does so if one more is compared between them,
unless the comparison comes to that one and fails. -/
theorem liesBelowAny_insert (hposix : host.platform = .posix) (hcandidate : IsCanonical candidate)
    {before after : List Text} (h : liesBelowAny host candidate (before ++ after) = .ok true)
    (directory : Text) :
    liesBelowAny host candidate (before ++ directory :: after) = .ok true ∨
      ∃ fault, host.canonicalize directory true = .error fault ∧
        liesBelowAny host candidate (before ++ directory :: after) = .error fault := by
  -- Where one of the directories in front contains the path, the new one is not reached.
  induction before with
  | nil =>
      rw [List.nil_append] at h ⊢
      cases htop : host.canonicalize directory true with
      | error fault => exact .inr ⟨fault, rfl, bind_eq_error.2 (.inl htop)⟩
      | ok top =>
          have htopCanonical := Host.isCanonical_of_canonicalize hposix htop
          left
          refine bind_eq_ok.2 ⟨top, htop, ?_⟩
          rw [hposix]
          rcases isBelow_eq_true_or_false htopCanonical hcandidate with hbelow | hbelow
          · exact bind_eq_ok.2 ⟨true, hbelow, rfl⟩
          · exact bind_eq_ok.2 ⟨false, hbelow, h⟩
  | cons first before ih =>
      obtain ⟨top, htop, h⟩ := bind_eq_ok.1 h
      obtain ⟨below, hbelow, h⟩ := bind_eq_ok.1 h
      cases below with
      | true => exact .inl (bind_eq_ok.2 ⟨top, htop, bind_eq_ok.2 ⟨true, hbelow, rfl⟩⟩)
      | false =>
          rcases ih h with hlies | ⟨fault, hfault, hfails⟩
          · exact .inl (bind_eq_ok.2 ⟨top, htop, bind_eq_ok.2 ⟨false, hbelow, hlies⟩⟩)
          · exact .inr ⟨fault, hfault, bind_eq_error.2
              (.inr ⟨top, htop, bind_eq_error.2 (.inr ⟨false, hbelow, hfails⟩)⟩)⟩

theorem exists_split_insertDirectory (directory : Text) (directories : List Text) :
    ∃ before after, directories = before ++ after ∧
      insertDirectory directory directories = before ++ directory :: after := by
  induction directories with
  | nil => exact ⟨[], [], rfl, rfl⟩
  | cons d rest ih =>
      unfold insertDirectory
      split
      · obtain ⟨before, after, hsplit, hinsert⟩ := ih
        exact ⟨d :: before, after, by rw [hsplit]; rfl, by rw [hinsert]; rfl⟩
      · exact ⟨[], d :: rest, rfl, rfl⟩

def Change.grants : Change → Bool
  | .setBasePath _ => false
  | .addIncludePath _ | .allowDirectory _ => true

/-- Whether a change allows a directory that was not allowed before, and that cannot be canonicalized
once its links are resolved. -/
def Breaks (host : Host) (s : Sandbox) (change : Change) (directory : Text) (fault : Fault) :
    Prop :=
  ∃ path, change = .allowDirectory path ∧ host.canonicalize path false = .ok directory ∧
    directory ∉ s.allowed ∧ host.canonicalize directory true = .error fault

theorem Breaks.fault_cases (hposix : host.platform = .posix) {change : Change} {fault : Fault}
    (h : Breaks host s change directory fault) :
    fault = .embeddedNul ∨
      ∃ root, host.LeavesBareRoot directory root ∧
        fault = .violation (.anchoredPathNotRooted root) := by
  obtain ⟨path, -, hdirectory, -, hfault⟩ := h
  obtain ⟨workDir, hwork, -⟩ := bind_eq_ok.1 hdirectory
  exact Host.fault_of_canonicalize hposix hwork (Host.isCanonical_of_lexical hposix hdirectory)
    hfault

theorem searchPrefixes_apply {change : Change} (hgrants : change.grants = true)
    {notices : List Notice} (h : s.apply host change = .ok (s', notices)) :
    ∃ more, s'.searchPrefixes = s.searchPrefixes ++ more := by
  cases change with
  | setBasePath path => cases hgrants
  | addIncludePath path =>
      obtain ⟨-, directory, -, rfl⟩ := addIncludePath_eq_ok h
      exact ⟨[directory], rfl⟩
  | allowDirectory path =>
      obtain ⟨directory, -, ⟨-, rfl⟩ | ⟨-, rfl⟩⟩ := allowDirectory_eq_ok h
      · exact ⟨[], by simp⟩
      · exact ⟨[], by simp [searchPrefixes]⟩

/-- What may be read may be read after a change that grants access, unless the comparison with the
boundary comes to a broken directory. -/
theorem isAllowed_apply (hposix : host.platform = .posix) (hcandidate : IsCanonical candidate)
    {change : Change} (hgrants : change.grants = true) {notices : List Notice}
    (happly : s.apply host change = .ok (s', notices))
    (h : s.isAllowed host candidate = .ok true) :
    s'.isAllowed host candidate = .ok true ∨
      ∃ directory fault, Breaks host s change directory fault ∧
        s'.isAllowed host candidate = .error fault := by
  cases change with
  | setBasePath path => cases hgrants
  | addIncludePath path =>
      obtain ⟨-, directory, -, rfl⟩ := addIncludePath_eq_ok happly
      have hboundary : boundary { s with includePaths := s.includePaths ++ [directory] } =
          s.boundary ++ [directory] := by
        simp [boundary]
      left
      rw [isAllowed, hboundary]
      exact liesBelowAny_append h [directory]
  | allowDirectory path =>
      obtain ⟨directory, hdirectory, ⟨-, rfl⟩ | ⟨hnew, rfl⟩⟩ := allowDirectory_eq_ok happly
      · exact .inl h
      · -- The new entry is compared before those that it is sorted in front of.
        obtain ⟨before, after, hsplit, hinsert⟩ :=
          exists_split_insertDirectory directory s.allowed
        have hold : s.boundary = before ++ (after ++
            (if s.basePath = [] then Path.dot else s.basePath) :: s.includePaths) := by
          rw [boundary, hsplit, List.append_assoc]
        have hboundary : boundary { s with allowed := insertDirectory directory s.allowed } =
            before ++ directory :: (after ++
              (if s.basePath = [] then Path.dot else s.basePath) :: s.includePaths) := by
          simp only [boundary, hinsert, List.append_assoc, List.cons_append]
        rw [isAllowed, hold] at h
        rw [isAllowed, hboundary]
        rcases liesBelowAny_insert hposix hcandidate h directory with
          hlies | ⟨fault, hfault, hfails⟩
        · exact .inl hlies
        · exact .inr ⟨directory, fault, ⟨path, rfl, hdirectory, hnew, hfault⟩, hfails⟩

end Sandbox

namespace Session

variable {host : Host} {s : Session} {name text : Text} {sandbox : Sandbox}
  {notices : List Notice} {change : Sandbox.Change}

/-- After a change that grants access to a directory, a read that has succeeded gives the same text,
unless the comparison of its path with the boundary comes to the new directory and that cannot be
canonicalized once its links are resolved: there is a NUL in it, or a network root and nothing more
is left of it. Then the read ends with that failure. -/
theorem read_granted (hposix : host.platform = .posix) (hgrants : change.grants = true)
    (happly : s.sandbox.apply host change = .ok (sandbox, notices))
    (h : (s.read host sourceKind name).1 = .ok ⟨true, text⟩) :
    ∃ path, findCandidate host (withoutScheme name) [] s.sandbox.searchPrefixes = .ok path ∧
      (({ s with sandbox := sandbox }.read host sourceKind name).1 = .ok ⟨true, text⟩ ↔
        ∀ fault, ¬ Sandbox.CheckFails host path sandbox.boundary fault) ∧
      ∀ fault, Sandbox.CheckFails host path sandbox.boundary fault →
        ({ s with sandbox := sandbox }.read host sourceKind name).1 =
            (s.conclude name (.error fault)).1 ∧
          ∃ directory, Sandbox.Breaks host s.sandbox change directory fault ∧
            (fault = .embeddedNul ∨ ∃ root, host.LeavesBareRoot directory root ∧
              fault = .violation (.anchoredPathNotRooted root)) := by
  obtain ⟨found, hfind⟩ := find_eq_loaded_of_read h
  rw [find_eq] at hfind
  obtain ⟨path, hpath, hinspect⟩ := bind_eq_ok.1 hfind
  obtain ⟨rfl, hallowed, hisFile, htext⟩ := inspect_eq_loaded hinspect
  obtain ⟨root, before, after, hroots, hbefore, hcandidate, -⟩ :=
    exists_chosen_of_findCandidate (by simp [Sandbox.searchPrefixes]) hpath
  have hcanonical := Host.isCanonical_of_canonicalize hposix hcandidate
  -- The search decides for the same path, since something exists there.
  have hsame : findCandidate host (withoutScheme name) [] sandbox.searchPrefixes = .ok found := by
    obtain ⟨more, hmore⟩ := Sandbox.searchPrefixes_apply hgrants happly
    have hexists := Host.pathExists_of_ask hisFile
    rw [hmore, hroots, List.append_assoc, List.cons_append]
    exact findCandidate_of_chosen ⟨before, after ++ more, rfl, hbefore, hcandidate, .inr hexists⟩
      hexists []
  have hfind : find host sandbox name = inspect host sandbox found := by
    rw [find_eq, hsame]
    rfl
  have hfails : ∀ {fault}, sandbox.isAllowed host found = .error fault ↔
      Sandbox.CheckFails host found sandbox.boundary fault :=
    Sandbox.liesBelowAny_eq_error_iff hposix hcanonical
  have hkept := Sandbox.isAllowed_apply hposix hcanonical hgrants happly hallowed
  have herror : ∀ {fault}, Sandbox.CheckFails host found sandbox.boundary fault →
      find host sandbox name = .error fault := fun hcheck =>
    hfind.trans (bind_eq_error.2 (.inl (hfails.2 hcheck)))
  refine ⟨found, hpath, ⟨fun hread fault hcheck => ?_, fun hnone => ?_⟩, fun fault hcheck => ?_⟩
  · exact (read_of_find_error (s := { s with sandbox := sandbox }) (herror hcheck)).2 text hread
  · rcases hkept with hstill | ⟨directory, fault, -, hfault⟩
    · rw [read_of_find_loaded (s := { s with sandbox := sandbox })
        (hfind.trans (inspect_of_readable hstill hisFile htext))]
    · exact absurd (hfails.1 hfault) (hnone fault)
  · rcases hkept with hstill | ⟨directory, fault', hbreaks, hfault⟩
    · cases hstill.symm.trans (hfails.2 hcheck)
    · obtain rfl := Except.error.inj (hfault.symm.trans (hfails.2 hcheck))
      have hread := (read_of_find_error (s := { s with sandbox := sandbox }) (herror hcheck)).1
      exact ⟨hread.trans (conclude_fst _ s name _), directory, hbreaks,
        hbreaks.fault_cases hposix⟩

/-- A host with a file in a directory, a link to that directory, and a link to itself behind which
nothing but a network root is left. -/
def frayed : Host where
  platform := .posix
  tree := ⟨[(["d".toList], .link "d///x".toList), (["e".toList], .link "./w/".toList),
    (["w".toList], .directory false), (["w".toList, "f".toList], .file [70] false)]⟩
  workDir := some ['/']

def allowing (directory : Text) : Session where
  sandbox := ⟨"/w".toList, [], [directory]⟩
  registry := .empty

theorem read_granted_frayed :
    ((below "/w".toList).read frayed sourceKind "f".toList).1 = .ok ⟨true, ['F']⟩ ∧
      (below "/w".toList).sandbox.apply frayed (.allowDirectory "/e".toList) =
        .ok ((allowing "/e".toList).sandbox, [.directoryAllowed "/e".toList]) ∧
      ((allowing "/e".toList).read frayed sourceKind "f".toList).1 = .ok ⟨true, ['F']⟩ := by
  have hread : ((below "/w".toList).read frayed sourceKind "f".toList).1 = .ok ⟨true, ['F']⟩ := by
    cbv
  have happly : (below "/w".toList).sandbox.apply frayed (.allowDirectory "/e".toList) =
      .ok ((allowing "/e".toList).sandbox, [.directoryAllowed "/e".toList]) := by
    cbv
  have hform : frayed.canonicalize "/e".toList false = .ok "/e".toList := by cbv
  have hresolved : frayed.canonicalize "/e".toList true = .ok "/w".toList := by cbv
  obtain ⟨path, -, hiff, hfails⟩ := read_granted rfl rfl happly hread
  refine ⟨hread, happly, hiff.2 fun fault hcheck => ?_⟩
  obtain ⟨-, directory, ⟨allowed, heq, hdirectory, -, hfault⟩, -⟩ := hfails fault hcheck
  obtain rfl := Sandbox.Change.allowDirectory.inj heq
  obtain rfl := Except.ok.inj (hform.symm.trans hdirectory)
  cases hresolved.symm.trans hfault

/-- Allowing one more directory makes a read fail that has succeeded: by a link behind which only a
network root is left, or by a NUL. -/
theorem read_granted_revoked :
    Reachable (below "/w".toList) ∧
      ((below "/w".toList).read frayed sourceKind "f".toList).1 = .ok ⟨true, ['F']⟩ ∧
      (below "/w".toList).perform frayed (.change (.allowDirectory "/d".toList)) =
        (.ok .done, allowing "/d".toList) ∧
      ((allowing "/d".toList).read frayed sourceKind "f".toList).1 =
        .error (.violation (.anchoredPathNotRooted "//x".toList)) ∧
      (below "/w".toList).perform frayed (.change (.allowDirectory "a\x00".toList)) =
        (.ok .done, allowing "/a\x00".toList) ∧
      ((allowing "/a\x00".toList).read frayed sourceKind "f".toList).1 =
        .ok ⟨false, faultMessage .embeddedNul⟩ := by
  have hbuilt : (Sandbox.build frayed "w".toList [] []).1 = .ok (below "/w".toList).sandbox := by
    cbv
  have hfind : find frayed (allowing "/a\x00".toList).sandbox "f".toList = .error .embeddedNul := by
    cbv
  have hread := (read_of_find_error (s := allowing "/a\x00".toList) hfind).1
  exact ⟨.start rfl hbuilt [], by cbv, by cbv, by cbv, by cbv, hread⟩

end Session

end SourceLoader
