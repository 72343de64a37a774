import Mathlib
import SourceLoader.Proofs.Host.Linkfree
import SourceLoader.Proofs.Session.Failure
import SourceLoader.Proofs.Session.Invariant
import SourceLoader.Proofs.Session.Reading
import SourceLoader.Proofs.Session.Search
import SourceLoader.Proofs.Session.SearchPath

/-!
The names of paths from the command line. On a host without links, naming a path and searching for
the name are inverse to each other: the name is made of the segments of the path below the first
root that contains it, so joining it to that root gives the path back, and what lies below a root
may be read. Only a root before that one can divert the search, by something under the same name.

When two paths from the command line get the same source unit name, so that what is registered for
one takes the place of what is registered for the other. A name that is relative to a root gives the
path back when it is joined to the root, and a name that begins with a slash is the path itself. So
names are shared only by paths below different roots.
-/

namespace SourceLoader

open SourceLoader.Path Location

namespace Sandbox

variable {host : Host} {s : Sandbox} {candidate root : Text} {directories before after : List Text}

/-- The directories that a path from the command line is named below: those that are searched, with
the working directory in the place of a base path that is not set. -/
def namingRoots (host : Host) (s : Sandbox) : Except Fault (List Text) := do
  let base ← if s.basePath = [] then host.canonicalize Path.dot false else .ok s.basePath
  return base :: s.includePaths

def NulFree (s : Sandbox) : Prop :=
  ∀ directory ∈ s.searchPrefixes ++ s.allowed, '\x00' ∉ directory

theorem namingRoots_of_base (hbase : s.basePath ≠ []) :
    s.namingRoots host = .ok s.searchPrefixes := by
  rw [namingRoots, if_neg hbase]
  rfl

theorem namingRoots_of_no_base (hbase : s.basePath = []) :
    s.namingRoots host = (· :: s.includePaths) <$> host.canonicalize Path.dot false := by
  rw [namingRoots, if_pos hbase]
  cases host.canonicalize Path.dot false <;> rfl

theorem exists_base_of_namingRoots {roots : List Text} (h : s.namingRoots host = .ok roots) :
    ∃ base, roots = base :: s.includePaths := by
  by_cases hbase : s.basePath = []
  · rw [namingRoots_of_no_base hbase] at h
    cases hdot : host.canonicalize Path.dot false with
    | error fault =>
        rw [hdot] at h
        cases h
    | ok base =>
        rw [hdot] at h
        exact ⟨base, (Except.ok.inj h).symm⟩
  · rw [namingRoots_of_base hbase] at h
    exact ⟨s.basePath, (Except.ok.inj h).symm⟩

theorem unitName_eq (host : Host) (s : Sandbox) (path : Text) :
    s.unitName host path = (do
      let roots ← s.namingRoots host
      let canonical ← host.canonicalize path false
      relativeToFirst host.platform canonical roots) := by
  unfold unitName
  by_cases hbase : s.basePath = []
  · rw [namingRoots_of_no_base hbase, if_pos hbase]
    cases host.canonicalize Path.dot false <;> rfl
  · rw [namingRoots_of_base hbase, if_neg hbase]
    rfl

theorem unitName_of_namingRoots {path canonical : Text} {roots : List Text}
    (hroots : s.namingRoots host = .ok roots)
    (hcanonical : host.canonicalize path false = .ok canonical) :
    s.unitName host path = relativeToFirst host.platform canonical roots := by
  rw [unitName_eq, hroots]
  simp only [bind, Except.bind, hcanonical]

theorem relativeToFirst_append {platform : Platform} {path : Text}
    (hbefore : ∀ earlier ∈ before, isBelow platform earlier path = .ok false)
    (hroot : isBelow platform root path = .ok true) :
    relativeToFirst platform path (before ++ root :: after) = relativeTo platform root path := by
  induction before with
  | nil => simp [relativeToFirst, hroot, bind, Except.bind]
  | cons earlier before ih =>
      obtain ⟨hearlier, hbefore⟩ := List.forall_mem_cons.1 hbefore
      simp [relativeToFirst, hearlier, bind, Except.bind, ih hbefore]

/-- While no base path is set, the working directory is the one root that paths are named below. -/
theorem WellFormed.namingRoots_eq_singleton (h : s.WellFormed) (hbase : s.basePath = [])
    (hroots : s.namingRoots host = .ok (before ++ root :: after)) :
    before = [] ∧ after = [] ∧ s.includePaths = [] ∧
      host.canonicalize Path.dot false = .ok root := by
  have hincludes : s.includePaths = [] := by
    by_contra hne
    exact h.base_ne_nil hne hbase
  rw [namingRoots_of_no_base hbase, hincludes] at hroots
  cases hdot : host.canonicalize Path.dot false with
  | error fault =>
      rw [hdot] at hroots
      cases hroots
  | ok base =>
      rw [hdot] at hroots
      have hsplit : [base] = before ++ root :: after := Except.ok.inj hroots
      obtain ⟨rfl, rfl, rfl⟩ : before = [] ∧ base = root ∧ after = [] := by
        cases before <;> simp_all
      exact ⟨rfl, rfl, hincludes, rfl⟩

theorem WellFormed.isCanonical_of_namingRoots (hposix : host.platform = .posix)
    (h : s.WellFormed) (hroots : s.namingRoots host = .ok (before ++ root :: after)) :
    ∀ directory ∈ before ++ root :: after, IsCanonical directory := by
  by_cases hbase : s.basePath = []
  · obtain ⟨rfl, rfl, -, hdot⟩ := h.namingRoots_eq_singleton hbase hroots
    simpa using Host.isCanonical_of_lexical hposix hdot
  · rw [namingRoots_of_base hbase] at hroots
    rw [← Except.ok.inj hroots]
    exact fun _ => h.isCanonical_of_mem_searchPrefixes hbase

theorem liesBelowAny_of_mem (hposix : host.platform = .posix) (hcandidate : IsCanonical candidate)
    (hforms : ∀ d ∈ directories, ∃ top, host.canonicalize d true = .ok top) {directory top : Text}
    (hmem : directory ∈ directories) (htop : host.canonicalize directory true = .ok top)
    (hbelow : isBelow .posix top candidate = .ok true) :
    liesBelowAny host candidate directories = .ok true := by
  refine liesBelowAny_of_not_fails hposix hcandidate (fun fault hfails => ?_) hmem htop hbelow
  obtain ⟨d, hd, hfault⟩ := hfails.exists_mem
  obtain ⟨top', htop'⟩ := hforms d hd
  cases htop'.symm.trans hfault

/-- What lies below a root that paths are named below may be read. -/
theorem isAllowed_of_named {workDir : Text} (hposix : host.platform = .posix)
    (hfree : host.tree.Linkfree) (hwork : host.canonicalWorkDir = .ok workDir)
    (hs : s.WellFormed) (hnul : s.NulFree)
    (hroots : s.namingRoots host = .ok (before ++ root :: after))
    (hcandidate : IsCanonical candidate) (hbelow : isBelow .posix root candidate = .ok true) :
    s.isAllowed host candidate = .ok true := by
  have hself : ∀ d ∈ s.searchPrefixes ++ s.allowed, IsCanonical d →
      host.canonicalize d true = .ok d := fun d hd hform =>
    Host.canonicalize_of_isCanonical hposix hfree hwork hform (hnul d hd)
  have hallowed : ∀ d ∈ s.allowed, ∃ top, host.canonicalize d true = .ok top := fun d hd =>
    ⟨d, hself d (by simp [hd]) (hs.allowed d hd)⟩
  by_cases hbase : s.basePath = []
  -- The boundary names the working directory by a dot, which leads to the root.
  · obtain ⟨rfl, rfl, hincludes, hdot⟩ := hs.namingRoots_eq_singleton hbase hroots
    have hresolved := Host.canonicalize_dot hposix hfree hwork hdot
    have hboundary : s.boundary = s.allowed ++ [Path.dot] := by
      simp [boundary, hbase, hincludes]
    rw [isAllowed, hboundary]
    refine liesBelowAny_of_mem hposix hcandidate (fun d hd => ?_) (by simp) hresolved hbelow
    rcases List.mem_append.1 hd with hd | hd
    · exact hallowed d hd
    · exact List.mem_singleton.1 hd ▸ ⟨root, hresolved⟩
  · rw [namingRoots_of_base hbase] at hroots
    have hsearched : ∀ d ∈ s.searchPrefixes, host.canonicalize d true = .ok d := fun d hd =>
      hself d (by simp [hd]) (hs.isCanonical_of_mem_searchPrefixes hbase hd)
    have hmem : root ∈ s.searchPrefixes := by
      rw [Except.ok.inj hroots]
      simp
    have hboundary : s.boundary = s.allowed ++ s.searchPrefixes := by
      simp [boundary, hbase, searchPrefixes]
    rw [isAllowed, hboundary]
    refine liesBelowAny_of_mem hposix hcandidate (fun d hd => ?_) (by simp [hmem])
      (hsearched root hmem) hbelow
    rcases List.mem_append.1 hd with hd | hd
    · exact hallowed d hd
    · exact ⟨d, hsearched d hd⟩

end Sandbox

namespace Session

variable {host : Host} {s : Session} {workDir path root text : Text} {before after : List Text}

theorem missing_of_absent (hposix : host.platform = .posix) (hfree : host.tree.Linkfree)
    (hwork : host.canonicalWorkDir = .ok workDir) (hroot : IsCanonical root) {names : List Text}
    (hnames : Named names) (hne : names ≠ [])
    (h : host.Absent (joinSearchPath root (Text.join ['/'] names))) :
    Missing host (Text.join ['/'] names) root := by
  obtain ⟨rootName, above, isDirectory, hname, habove, rfl⟩ := hroot
  have hjoin := joinSearchPath_render hname habove hnames hne isDirectory
  have hnamed : Named (above ++ names) := named_append.2 ⟨habove, hnames⟩
  have hsegments : above ++ names ≠ [] := by simp [hne]
  rw [hjoin] at h
  have hnul := h.nul_not_mem
  have hlookup := lookup_hostPath host hname hnamed hsegments
    (h.checkLength_eq (by simp [render])) true
  refine ⟨render rootName (above ++ names) false, ?_, ?_⟩
  · rw [hjoin]
    exact Host.canonicalize_of_isCanonical hposix hfree hwork ⟨_, _, _, hname, hnamed, rfl⟩ hnul
  · exact Host.ask_of_lookup_eq hlookup (nul_not_mem_hostPath hname hnamed hsegments hnul) hnul
      h.pathExists

/-- A search for names below the first root that they are found under comes to the path of these
names below that root. -/
theorem findCandidate_of_named {sandbox : Sandbox} {rootName : Text} {above names : List Text}
    {isDirectory : Bool} (hposix : host.platform = .posix) (hfree : host.tree.Linkfree)
    (hwork : host.canonicalWorkDir = .ok workDir) (hs : sandbox.WellFormed)
    (hname : IsRootName rootName) (habove : Named above) (hnames : Named names) (hne : names ≠ [])
    (hroots : sandbox.namingRoots host =
      .ok (before ++ render rootName above isDirectory :: after))
    (hnul : '\x00' ∉ render rootName (above ++ names) false)
    (habsent : ∀ earlier ∈ before, host.Absent (joinSearchPath earlier (Text.join ['/'] names)))
    (hexists : host.pathExists (hostPath (render rootName (above ++ names) false)) = .ok true) :
    findCandidate host (Text.join ['/'] names) [] sandbox.searchPrefixes =
      .ok (render rootName (above ++ names) false) := by
  by_cases hbase : sandbox.basePath = []
  -- The names are searched for as they are, and seen from the working directory.
  · obtain ⟨rfl, rfl, hincludes, hdot⟩ := hs.namingRoots_eq_singleton hbase hroots
    have hnul' : '\x00' ∉ Text.join ['/'] names := by
      rw [render_eq, path_append above hne] at hnul
      simp only [List.mem_append, List.mem_cons, not_or] at hnul
      exact hnul.2.1.2.2
    obtain ⟨above', isDirectory', habove', heq, hform⟩ :=
      Host.canonicalize_join hposix hfree hwork hdot hnames hne hnul'
    have hsplit := congrArg (split .posix) heq
    rw [split_render hname habove, split_render (.inl rfl) habove'] at hsplit
    obtain ⟨rfl, -, rfl, -⟩ := Parts.mk.inj hsplit
    rw [Sandbox.searchPrefixes, hbase, hincludes]
    refine findCandidate_of_chosen ⟨[], [], List.nil_append [[]], by simp, ?_, .inl rfl⟩ hexists []
    rwa [joinSearchPath, if_pos rfl]
  · rw [Sandbox.namingRoots_of_base hbase] at hroots
    have hform : ∀ d ∈ before, IsCanonical d := fun d hd =>
      hs.isCanonical_of_mem_searchPrefixes hbase (by rw [Except.ok.inj hroots]; simp [hd])
    rw [Except.ok.inj hroots]
    refine findCandidate_of_chosen ⟨before, after, rfl, fun d hd => ?_, ?_, .inr hexists⟩ hexists []
    · exact missing_of_absent hposix hfree hwork (hform d hd) hnames hne (habsent d hd)
    · rw [joinSearchPath_render hname habove hnames hne]
      exact Host.canonicalize_of_isCanonical hposix hfree hwork
        ⟨_, _, _, hname, named_append.2 ⟨habove, hnames⟩, rfl⟩ hnul

/-- On a host without links, a file whose path lies below a root has a name. A text for that path is
registered under the name: in the place that the name had, or at the end. If the name leads nowhere
below the roots before the first that contains the path, it is that file which is read under the
name, and its text is registered in the same place. -/
theorem read_unitName (hposix : host.platform = .posix) (hfree : host.tree.Linkfree)
    (h : Reachable s) (hnul : s.sandbox.NulFree) {canonical : Text}
    (hcanonical : host.canonicalize path false = .ok canonical)
    (hroots : s.sandbox.namingRoots host = .ok (before ++ root :: after))
    (hbefore : ∀ earlier ∈ before, isBelow .posix earlier canonical ≠ .ok true)
    (hroot : isBelow .posix root canonical = .ok true)
    (hisFile : host.isFile canonical = .ok true) (htext : host.readText canonical = .ok text) :
    ∃ name, s.sandbox.unitName host path = .ok name ∧
      (∀ source, s.setSource host path source =
          .ok ({ s with registry := s.registry.set name source }, [.sourceSet name]) ∧
        (s.registry.set name source).entries =
          if name ∈ s.registry.names then
            s.registry.entries.map fun e => if e.1 = name then (name, source) else e
          else s.registry.entries ++ [(name, source)]) ∧
      ((∀ earlier ∈ before, host.Absent (joinSearchPath earlier name)) →
        (s.read host sourceKind name).1 = .ok ⟨true, text⟩ ∧
          (s.read host sourceKind name).2.1 =
            { s with registry := s.registry.set name text }) := by
  have hs := h.wellFormed
  have hform := Host.isCanonical_of_lexical hposix hcanonical
  have hforms := hs.isCanonical_of_namingRoots hposix hroots
  obtain ⟨workDir, hwork, -⟩ := bind_eq_ok.1 hcanonical
  have hpassed : ∀ earlier ∈ before, isBelow host.platform earlier canonical = .ok false := by
    intro earlier hmem
    rw [hposix]
    exact (isBelow_eq_true_or_false (hforms earlier (by simp [hmem])) hform).resolve_left
      (hbefore earlier hmem)
  obtain ⟨rootName, above, isDirectory, hname, habove, rfl⟩ := hforms root (by simp)
  obtain ⟨names, marked, hne, hnames, rfl⟩ := (isBelow_render_iff hname habove hform).1 hroot
  have hnamed : Named (above ++ names) := named_append.2 ⟨habove, hnames⟩
  have hsegments : above ++ names ≠ [] := by simp [hne]
  -- A path that is marked as a directory would not be that of a file.
  obtain rfl : marked = false := by
    have hlast := Host.getLast?_ne_slash_of_isFile hform.isAbsolute hisFile
    rw [Ne, getLast?_render _ hnamed] at hlast
    simpa [hne] using hlast
  have hunitName : s.sandbox.unitName host path = .ok (Text.join ['/'] names) := by
    rw [Sandbox.unitName_of_namingRoots hroots hcanonical,
      Sandbox.relativeToFirst_append hpassed (hposix ▸ hroot), hposix,
      relativeTo_render hname habove hnames hne]
    simp [mark]
  refine ⟨_, hunitName, fun source => ⟨?_, Registry.entries_set h.nodup_names _ source⟩,
    fun habsent => ?_⟩
  · simp only [setSource, hunitName, bind, Except.bind, pure, Except.pure]
  · obtain ⟨hisFile', htext'⟩ := isFile_hostPath hname hnamed hsegments hisFile htext
    have hpath := findCandidate_of_named hposix hfree hwork hs hname habove hnames hne hroots
      (Host.nul_not_mem_of_ask hisFile) habsent (Host.pathExists_of_ask hisFile')
    have hallowed := Sandbox.isAllowed_of_named hposix hfree hwork hs hnul hroots hform hroot
    have hfind : find host s.sandbox (Text.join ['/'] names) =
        .ok (.loaded (render rootName (above ++ names) false) text) := by
      rw [find_eq, withoutScheme_join hnames, hpath]
      exact inspect_of_readable hallowed hisFile' htext'
    rw [read_of_find_loaded hfind]
    exact ⟨rfl, rfl⟩

def desk : Host where
  platform := .posix
  tree := ⟨[(["a".toList], .directory false), (["b".toList], .directory false),
    (["b".toList, "c".toList], .directory false),
    (["b".toList, "c".toList, "f".toList], .file [70] false)]⟩
  workDir := some "/a".toList

def seated : Session := ⟨⟨"/a/".toList, ["//b/c".toList], []⟩, .ofList []⟩

theorem reachable_seated : Reachable seated := by
  have hbuilt : (Sandbox.build desk ".".toList ["//b/c".toList] []).1 = .ok seated.sandbox := by
    cbv
  exact .start rfl hbuilt []

/-- The file is named below the second root, and is read under that name since nothing is there
below the first. -/
theorem read_unitName_seated :
    Reachable seated ∧ seated.sandbox.unitName desk "//b/x/../c/f".toList = .ok ['f'] ∧
      (seated.read desk sourceKind ['f']).1 = .ok ⟨true, ['F']⟩ ∧
      seated.setSource desk "//b/x/../c/f".toList ['G'] =
        .ok ({ seated with registry := seated.registry.set ['f'] ['G'] }, [.sourceSet ['f']]) ∧
      (seated.registry.set ['f'] ['G']).entries = [(['f'], ['G'])] := by
  have hfree : desk.tree.Linkfree := Tree.linkfree_of_linkCount rfl
  have hnul : seated.sandbox.NulFree := by
    unfold Sandbox.NulFree
    decide
  have hcanonical : desk.canonicalize "//b/x/../c/f".toList false = .ok "//b/c/f".toList := by cbv
  have hroots : seated.sandbox.namingRoots desk =
      .ok (["/a/".toList] ++ "//b/c".toList :: []) := by
    cbv
  have hfirst : isBelow .posix "/a/".toList "//b/c/f".toList = .ok false := by cbv
  have hbefore : ∀ earlier ∈ ["/a/".toList], isBelow .posix earlier "//b/c/f".toList ≠ .ok true := by
    intro earlier hmem hbelow
    obtain rfl := List.mem_singleton.1 hmem
    cases hfirst.symm.trans hbelow
  have hroot : isBelow .posix "//b/c".toList "//b/c/f".toList = .ok true := by cbv
  have hisFile : desk.isFile "//b/c/f".toList = .ok true := by cbv
  have htext : desk.readText "//b/c/f".toList = .ok ['F'] := by cbv
  have habsent : ∀ earlier ∈ ["/a/".toList], desk.Absent (joinSearchPath earlier ['f']) := by
    intro earlier hmem
    obtain rfl := List.mem_singleton.1 hmem
    exact ⟨⟨.notFound, some "/a/f".toList⟩, by cbv, .inl rfl⟩
  have hname : seated.sandbox.unitName desk "//b/x/../c/f".toList = .ok ['f'] := by cbv
  obtain ⟨name, hname', hset, hread⟩ :=
    read_unitName rfl hfree reachable_seated hnul hcanonical hroots hbefore hroot hisFile htext
  obtain rfl := Except.ok.inj (hname.symm.trans hname')
  obtain ⟨hafter, hentries⟩ := hset ['G']
  exact ⟨reachable_seated, hname, (hread habsent).1, hafter, hentries.trans rfl⟩

end Session

end SourceLoader

/-! ## Names that collide -/

namespace SourceLoader

open SourceLoader.Path

namespace Sandbox

variable {host : Host} {s : Sandbox} {path name root : Text} {roots : List Text}

def FirstAbove (roots : List Text) (path root : Text) : Prop :=
  Stops (fun directory => isBelow .posix directory path = .ok false)
    (fun directory => directory = root ∧ isBelow .posix directory path = .ok true) roots

theorem FirstAbove.mem (h : FirstAbove roots path root) : root ∈ roots := by
  obtain ⟨directory, hmem, rfl, -⟩ := h.exists_mem
  exact hmem

theorem FirstAbove.isBelow (h : FirstAbove roots path root) :
    isBelow .posix root path = .ok true := by
  obtain ⟨directory, -, rfl, hbelow⟩ := h.exists_mem
  exact hbelow

/-- What a path is named by: itself where no root contains it, and otherwise what is left of it below
the first root that does. -/
theorem relativeToFirst_cases (hroots : ∀ root ∈ roots, IsCanonical root) (hpath : IsCanonical path) :
    (∀ root ∈ roots, isBelow .posix root path = .ok false) ∧
        relativeToFirst .posix path roots = .ok path ∨
      ∃ root, FirstAbove roots path root ∧
        relativeToFirst .posix path roots = relativeTo .posix root path := by
  induction roots with
  | nil => exact .inl ⟨by simp, rfl⟩
  | cons first rest ih =>
      obtain ⟨hfirst, hrest⟩ := List.forall_mem_cons.1 hroots
      obtain ⟨below, hbelow, -⟩ := hfirst.comparable.isBelow_eq hpath.comparable
      have hstep : relativeToFirst .posix path (first :: rest) =
          if below then relativeTo .posix first path else relativeToFirst .posix path rest := by
        rw [relativeToFirst, hbelow]
        rfl
      cases below with
      | true => exact .inr ⟨first, stops_cons.2 (.inl ⟨rfl, hbelow⟩), hstep⟩
      | false =>
          rcases ih hrest with ⟨hnone, heq⟩ | ⟨root, habove, heq⟩
          · exact .inl ⟨List.forall_mem_cons.2 ⟨hbelow, hnone⟩, hstep.trans heq⟩
          · exact .inr ⟨root, stops_cons.2 (.inr ⟨hbelow, habove⟩), hstep.trans heq⟩

/-- A name is the canonical form of its path where no root contains that form, and otherwise it does
not begin with a slash and gives that form when it is joined to the first root that does. -/
theorem WellFormed.unitName_cases (hposix : host.platform = .posix) (hs : s.WellFormed)
    (h : s.unitName host path = .ok name) :
    ∃ base canonical, s.namingRoots host = .ok (base :: s.includePaths) ∧
      (∀ root ∈ base :: s.includePaths, IsCanonical root) ∧
      host.canonicalize path false = .ok canonical ∧ IsCanonical canonical ∧
      ((∀ root ∈ base :: s.includePaths, isBelow .posix root canonical = .ok false) ∧
          name = canonical ∨
        ∃ root, FirstAbove (base :: s.includePaths) canonical root ∧ isAbsolute name = false ∧
          Session.joinSearchPath root name = canonical) := by
  rw [unitName_eq] at h
  obtain ⟨roots, hroots, h⟩ := bind_eq_ok.1 h
  obtain ⟨canonical, hcanonical, hname⟩ := bind_eq_ok.1 h
  obtain ⟨base, rfl⟩ := exists_base_of_namingRoots hroots
  have hform := Host.isCanonical_of_lexical hposix hcanonical
  have hroots' : s.namingRoots host = .ok ([] ++ base :: s.includePaths) := hroots
  have hforms := hs.isCanonical_of_namingRoots hposix hroots'
  refine ⟨base, canonical, hroots, hforms, hcanonical, hform, ?_⟩
  rw [hposix] at hname
  rcases relativeToFirst_cases hforms hform with ⟨hnone, heq⟩ | ⟨root, habove, heq⟩
  · exact .inl ⟨hnone, Except.ok.inj (hname.symm.trans heq)⟩
  · obtain ⟨name', hname', -, hrel, hjoin⟩ :=
      Session.exists_relativeTo (hforms root habove.mem) hform habove.isBelow
    obtain rfl := Except.ok.inj (hname.symm.trans (heq.trans hname'))
    exact .inr ⟨root, habove, hrel, hjoin⟩

end Sandbox

namespace Session

open Sandbox

variable {host : Host} {s : Session} {path other name : Text}

/-- A name begins with a slash exactly where no root contains the path that it names. Two paths with
the same name have the same canonical form, or lie below roots at different places; so where only
one root is searched, a name has one canonical path. -/
theorem unitName_collides (hposix : host.platform = .posix) (h : Reachable s)
    (hname : s.sandbox.unitName host path = .ok name)
    (hname' : s.sandbox.unitName host other = .ok name) :
    ∃ roots canonical canonical', s.sandbox.namingRoots host = .ok roots ∧
      host.canonicalize path false = .ok canonical ∧
      host.canonicalize other false = .ok canonical' ∧
      (isAbsolute name = true ↔ ∀ root ∈ roots, isBelow .posix root canonical = .ok false) ∧
      (canonical ≠ canonical' →
        ∃ root root', FirstAbove roots canonical root ∧ FirstAbove roots canonical' root' ∧
          ¬ SamePlace root root') ∧
      (s.sandbox.includePaths = [] → canonical = canonical') := by
  obtain ⟨base, canonical, hroots, hforms, hcanonical, hform, hcases⟩ :=
    h.wellFormed.unitName_cases hposix hname
  obtain ⟨base', canonical', hroots', -, hcanonical', hform', hcases'⟩ :=
    h.wellFormed.unitName_cases hposix hname'
  obtain rfl : base = base' := (List.cons.inj (Except.ok.inj (hroots.symm.trans hroots'))).1
  have hplaces : canonical ≠ canonical' →
      ∃ root root', FirstAbove (base :: s.sandbox.includePaths) canonical root ∧
        FirstAbove (base :: s.sandbox.includePaths) canonical' root' ∧ ¬ SamePlace root root' := by
    intro hne
    -- Only a path that no root contains has a name with a slash in front, so both paths are named
    -- by themselves or neither is.
    rcases hcases with ⟨-, rfl⟩ | ⟨root, habove, hrel, hjoin⟩
    · rcases hcases' with ⟨-, rfl⟩ | ⟨root', -, hrel', -⟩
      · exact absurd rfl hne
      · cases hrel'.symm.trans hform.isAbsolute
    · rcases hcases' with ⟨-, rfl⟩ | ⟨root', habove', -, hjoin'⟩
      · cases hrel.symm.trans hform'.isAbsolute
      · refine ⟨root, root', habove, habove', fun hsame => hne ?_⟩
        rw [← hjoin, ← hjoin']
        exact joinSearchPath_congr (hforms root habove.mem) (hforms root' habove'.mem) hsame name
  refine ⟨_, canonical, canonical', hroots, hcanonical, hcanonical', ?_, hplaces, fun hnone => ?_⟩
  · rcases hcases with ⟨hout, rfl⟩ | ⟨root, habove, hrel, -⟩
    · exact ⟨fun _ => hout, fun _ => hform.isAbsolute⟩
    · refine ⟨fun habs => ?_, fun hout => ?_⟩
      · cases hrel.symm.trans habs
      · cases habove.isBelow.symm.trans (hout root habove.mem)
  · by_contra hne
    obtain ⟨root, root', habove, habove', hdiffer⟩ := hplaces hne
    rw [hnone] at habove habove'
    obtain rfl := List.mem_singleton.1 habove.mem
    obtain rfl := List.mem_singleton.1 habove'.mem
    exact hdiffer ⟨rfl, rfl⟩

theorem unitName_collides_seated :
    Reachable seated ∧ seated.sandbox.unitName desk "x/".toList = .ok "x/".toList ∧
      seated.sandbox.unitName desk "//b/y/../c/x/.".toList = .ok "x/".toList ∧
      desk.canonicalize "x/".toList false = .ok "/a/x/".toList ∧
      desk.canonicalize "//b/y/../c/x/.".toList false = .ok "//b/c/x/".toList ∧
      ∃ root root', FirstAbove ["/a/".toList, "//b/c".toList] "/a/x/".toList root ∧
        FirstAbove ["/a/".toList, "//b/c".toList] "//b/c/x/".toList root' ∧
        ¬ SamePlace root root' := by
  have hname : seated.sandbox.unitName desk "x/".toList = .ok "x/".toList := by cbv
  have hname' : seated.sandbox.unitName desk "//b/y/../c/x/.".toList = .ok "x/".toList := by cbv
  have hform : desk.canonicalize "x/".toList false = .ok "/a/x/".toList := by cbv
  have hform' : desk.canonicalize "//b/y/../c/x/.".toList false = .ok "//b/c/x/".toList := by cbv
  have hroots : seated.sandbox.namingRoots desk = .ok ["/a/".toList, "//b/c".toList] := by cbv
  obtain ⟨roots, canonical, canonical', hroots', hcanonical, hcanonical', -, hplaces, -⟩ :=
    unitName_collides rfl reachable_seated hname hname'
  obtain rfl := Except.ok.inj (hroots.symm.trans hroots')
  obtain rfl := Except.ok.inj (hform.symm.trans hcanonical)
  obtain rfl := Except.ok.inj (hform'.symm.trans hcanonical')
  exact ⟨reachable_seated, hname, hname', hform, hform', hplaces (by decide)⟩

end Session

end SourceLoader
