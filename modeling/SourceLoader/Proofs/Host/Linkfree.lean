import Mathlib
import SourceLoader.Proofs.Host.Access
import SourceLoader.Proofs.Host.Depth
import SourceLoader.Proofs.Host.Retraction
import SourceLoader.Proofs.Path.Anchor

/-!
Hosts without links. Rebuilding a path there walks along its components, and so does collapsing its
dots. So canonicalizing gives the same whether links are to be resolved or not, whatever exists, may
be entered, or can be looked up at all.
-/

namespace SourceLoader

open SourceLoader.Path

def Tree.Linkfree (tree : Tree) : Prop :=
  ∀ location target, tree.get? location ≠ some (.link target)

theorem Tree.linkfree_of_linkCount {tree : Tree} (h : tree.linkCount = 0) : tree.Linkfree := by
  intro location target hlink
  have hlength := length_le_linkCount (List.nodup_singleton location)
    fun l hl => ⟨target, List.mem_singleton.1 hl ▸ hlink⟩
  rw [h] at hlength
  simp at hlength

namespace Host

open Location

variable {host : Host} {workDir path : Text}

theorem linkTarget?_ne_some (hfree : host.tree.Linkfree) (path target : Text) :
    host.linkTarget? path ≠ .ok (some target) := by
  intro h
  unfold linkTarget? at h
  split at h
  · next target' hlink =>
    obtain ⟨location, -, hentry⟩ := entryAt_eq_ok (request_eq_ok hlink)
    exact hfree location target' hentry
  · cases h
  · cases h
  · cases h

theorem linkTarget?_of_linkfree (hfree : host.tree.Linkfree) (hnul : '\x00' ∉ path) :
    host.linkTarget? path = .ok none := by
  cases hlink : host.linkTarget? path with
  | ok answer =>
      cases answer with
      | none => rfl
      | some target => exact absurd hlink (linkTarget?_ne_some hfree path target)
  | error fault =>
      simp only [linkTarget?, request, if_neg hnul] at hlink
      cases hentry : host.entryAt (host.lookup false path) with
      | error errno => simp [hentry] at hlink
      | ok entry => cases entry <;> simp [hentry] at hlink

theorem unlinked_of_linkfree (hfree : host.tree.Linkfree) {location : Location}
    (hnul : '\x00' ∉ Location.path location) : host.Unlinked location := by
  intro front hfront _
  refine linkTarget?_of_linkfree hfree ?_
  rw [mem_path_iff (by decide)] at hnul ⊢
  rintro ⟨name, hname, h⟩
  exact hnul ⟨name, hfront.subset hname, h⟩

theorem complete_of_linkfree (hfree : host.tree.Linkfree) {depth : Nat} {components : List Text}
    {seen : Seen} {r : Rebuilt} (h : host.rebuild depth path components seen = .ok r) :
    r.complete = true := by
  fun_induction rebuild host depth path components seen with
  | case1 => exact Except.ok.inj h ▸ rfl
  | case2 _ _ _ _ _ _ ih | case3 _ _ _ _ _ ih => exact ih h
  | case4 => cases h
  | case5 =>
      rename_i ih
      exact ih h
  | case6 | case7 | case8 | case9 | case10 | case11 =>
      have hlink := ‹host.linkTarget? _ = .ok (some _)›
      exact absurd hlink (linkTarget?_ne_some hfree _ _)

/-- Without links, rebuilding walks along the components from the place that it has come to. -/
theorem rebuild_linkfree (hfree : host.tree.Linkfree) {here : Location} {components : List Text}
    (hhere : Named here) (hnul : '\x00' ∉ Location.path here)
    (hcomponents : ∀ c ∈ components, '/' ∉ c ∧ '\x00' ∉ c) (depth : Nat) (seen : Seen) :
    host.rebuild depth (Location.path here) components seen =
      .ok ⟨Location.path ((components.filter (· ≠ [])).foldl walkStep here), true, seen⟩ := by
  -- At every component the rebuilt path is that of the place `here`, which has no link to it.
  induction components generalizing here with
  | nil =>
      rw [rebuild]
      rfl
  | cons c components ih =>
      obtain ⟨⟨hslash, hc⟩, hrest⟩ := List.forall_mem_cons.1 hcomponents
      by_cases hskip : c = [] ∨ c = dot
      · rw [rebuild_skip hskip, ih hhere hnul hrest]
        rcases hskip with rfl | rfl
        · simp
        · simp [walkStep, dot]
      · by_cases hup : c = dotDot
        · subst hup
          have habove : '\x00' ∉ Location.path here.dropLast := by
            rw [mem_path_iff (by decide)] at hnul ⊢
            rintro ⟨name, hname, h⟩
            exact hnul ⟨name, List.dropLast_subset here hname, h⟩
          rw [rebuild_up, above_path hhere, ih hhere.dropLast habove hrest]
          simp [walkStep, dotDot, dot]
        · have hname := isName_of_component hskip hup hslash
          have hnext : '\x00' ∉ Location.path (here ++ [c]) := by
            rw [mem_path_iff (by decide)] at hnul ⊢
            simpa [not_or, hc] using hnul
          have hlink := linkTarget?_of_linkfree hfree hnext
          rw [← append_path hhere hname] at hlink
          rw [rebuild_plain hname hlink, append_path hhere hname,
            ih (by simp [hhere, hname]) hnext hrest]
          simp [walkStep, hname.ne_nil, hname.ne_dot, hname.ne_dotDot]

theorem realPath_linkfree (hposix : host.platform = .posix) (hfree : host.tree.Linkfree)
    (habs : isAbsolute path = true) (hnul : '\x00' ∉ path) :
    host.realPath path =
      .ok (Location.path (walkFromRoot ((path.splitOn '/').filter (· ≠ [])))) := by
  have hcomponents : ∀ c ∈ path.splitOn '/', '/' ∉ c ∧ '\x00' ∉ c := by
    rw [← Text.exists_mem_splitOn_iff (by decide)] at hnul
    exact fun c hc => ⟨Text.not_mem_of_mem_splitOn hc, fun h => hnul ⟨c, hc, h⟩⟩
  have hnamed : Named (walkFromRoot ((path.splitOn '/').filter (· ≠ []))) := by
    refine named_walkFromRoot_of_pieces fun s hs => ?_
    obtain ⟨hmem, hne⟩ := List.mem_filter.1 hs
    exact ⟨by simpa using hne, (hcomponents s hmem).1⟩
  obtain ⟨components, hsplit, hbegin⟩ := beginRebuild_of_isAbsolute habs []
  have hrebuilt : host.rebuilt path =
      .ok ⟨Location.path (walkFromRoot ((path.splitOn '/').filter (· ≠ []))), true, []⟩ := by
    have h := rebuild_linkfree hfree named_nil (by decide) hcomponents host.tree.linkCount []
    rw [hsplit, rebuild_skip (.inl rfl), ← hsplit] at h
    rw [rebuilt, hbegin]
    exact h
  rw [realPath_posix hposix, hrebuilt]
  simp only [isAbsolute_path, if_true, normalize_path hnamed]

theorem linkless_canonicalWorkDir (hposix : host.platform = .posix) (hfree : host.tree.Linkfree)
    (hwork : host.canonicalWorkDir = .ok workDir) (habs : isAbsolute workDir = true) :
    host.Linkless workDir := by
  rw [canonicalWorkDir_posix hposix] at hwork
  split at hwork
  · cases hwork
  · next cwd hcwd =>
    obtain ⟨r, hr, ⟨habs', rfl⟩ | ⟨hrel, cwd', hcwd', rfl⟩⟩ := realPath_eq_ok hposix hwork
    · obtain ⟨location, hnamed, hunlinked, hpath⟩ :=
        linkless_rebuilt hr (complete_of_linkfree hfree hr) habs'
      rw [hpath, normalize_path hnamed]
      exact ⟨location, hnamed, hunlinked, rfl⟩
    -- A path that is rebuilt to a relative one was relative, so nothing can have led it to the
    -- root.
    · obtain rfl := Option.some.inj (hcwd.symm.trans hcwd')
      rw [absolute, isAbsolute_normalize, isAbsolute_append hrel] at habs
      rw [isAbsolute_rebuilt habs hr] at hrel
      cases hrel

theorem rootName_canonicalWorkDir (hposix : host.platform = .posix) (hfree : host.tree.Linkfree)
    (hwork : host.canonicalWorkDir = .ok workDir) : rootName .posix workDir = [] := by
  by_contra hroot
  have habs : isAbsolute workDir = true := by
    rw [← isAbsolute_eq_of_isPrefix (rootName_isPrefix workDir) hroot]
    exact (isRootName_rootName workDir).isAbsolute hroot
  obtain ⟨location, hnamed, -, rfl⟩ := linkless_canonicalWorkDir hposix hfree hwork habs
  exact hroot (congrArg Parts.rootName (split_path hnamed))

theorem nul_not_mem_of_rebuild (hfree : host.tree.Linkfree) {depth : Nat} {components : List Text}
    {seen : Seen} {r : Rebuilt} (h : host.rebuild depth path components seen = .ok r) :
    ∀ c ∈ components, '\x00' ∉ c := by
  fun_induction rebuild host depth path components seen with
  | case1 => simp
  | case2 _ _ _ _ _ hskip ih =>
      refine List.forall_mem_cons.2 ⟨?_, ih h⟩
      rcases hskip with rfl | rfl <;> decide
  | case3 _ _ _ _ _ ih => exact List.forall_mem_cons.2 ⟨by decide, ih h⟩
  | case4 => cases h
  | case5 =>
      rename_i hlink ih
      refine List.forall_mem_cons.2 ⟨fun hnul => nul_not_mem_of_linkTarget? hlink ?_, ih h⟩
      change '\x00' ∈ Path.append _ _
      unfold Path.append
      split_ifs <;> simp [hnul]
  | case6 | case7 | case8 | case9 | case10 | case11 =>
      have hlink := ‹host.linkTarget? _ = .ok (some _)›
      exact absurd hlink (linkTarget?_ne_some hfree _ _)

theorem nul_not_mem_of_realPath (hposix : host.platform = .posix) (hfree : host.tree.Linkfree)
    (habs : isAbsolute path = true) {p : Text} (h : host.realPath path = .ok p) :
    '\x00' ∉ path := by
  obtain ⟨r, hr, -⟩ := realPath_eq_ok hposix h
  obtain ⟨components, hsplit, hbegin⟩ := beginRebuild_of_isAbsolute habs []
  rw [rebuilt, hbegin] at hr
  rw [← Text.exists_mem_splitOn_iff (by decide), hsplit]
  rintro ⟨c, hc, hnul⟩
  rcases List.mem_cons.1 hc with rfl | hc
  · cases hnul
  · exact nul_not_mem_of_rebuild hfree hr c hc hnul

/-- A path with a root that can be canonicalized keeps its root name, and a walk along its segments
leads to its place. -/
theorem canonicalize_of_rooted (hposix : host.platform = .posix) (hfree : host.tree.Linkfree)
    (hrooted : (split .posix path).rooted = true) {canonical : Text}
    (h : host.canonicalize path true = .ok canonical) :
    canonical = render (rootName .posix path) (walkFromRoot (split .posix path).segments)
      (split .posix path).isDirectory := by
  cases hwork : host.canonicalWorkDir with
  | error fault => simp [canonicalize, hwork, bind, Except.bind] at h
  | ok workDir =>
      have hanchor : anchor .posix workDir path = path := by
        rw [anchor_of_rooted hrooted, rootName_canonicalWorkDir hposix hfree hwork]
        simp
      have hresolved := resolved_of_workDir hposix hwork path
      rw [hanchor] at hresolved
      cases hunc : isUnc .posix path with
      | true =>
          rw [hunc, if_pos rfl] at hresolved
          simp only [canonicalize_resolved hposix, hresolved, hrooted, if_true] at h
          exact (Except.ok.inj h).symm
      | false =>
          have hname : rootName .posix path = [] := by simpa [isUnc_posix] using hunc
          have habs := isAbsolute_of_rooted hrooted
          rw [hunc, if_neg (by simp)] at hresolved
          cases hreal : host.realPath path with
          | error fault => simp [canonicalize_resolved hposix, hresolved, hreal] at h
          | ok p =>
              have hnul := nul_not_mem_of_realPath hposix hfree habs hreal
              rw [realPath_linkfree hposix hfree habs hnul,
                ← segments_of_rootName_eq_nil hname] at hresolved
              rw [canonicalize_of_resolved hposix (named_walkFromRoot path) hresolved] at h
              rw [hname]
              exact (Except.ok.inj h).symm

theorem canonicalize_of_isCanonical (hposix : host.platform = .posix)
    (hfree : host.tree.Linkfree) (hwork : host.canonicalWorkDir = .ok workDir)
    (h : IsCanonical path) (hnul : '\x00' ∉ path) : host.canonicalize path true = .ok path := by
  obtain ⟨name, segments, isDirectory, hname, hnamed, rfl⟩ := h
  by_cases hne : name = []
  · subst hne
    have hnul' : '\x00' ∉ Location.path segments := by
      rw [render_eq] at hnul
      exact fun h => hnul (List.mem_append_right _ (List.mem_append_left _ h))
    exact canonicalize_of_unlinked hposix hwork (rootName_canonicalWorkDir hposix hfree hwork)
      (unlinked_of_linkfree hfree hnul') hnamed isDirectory
  · exact canonicalize_of_network hposix hwork hname hne hnamed isDirectory

/-- Seen from the same working directory, both ways of canonicalizing walk along the same
segments. -/
theorem canonicalize_resolve (hposix : host.platform = .posix) (hfree : host.tree.Linkfree)
    (hwork : host.canonicalWorkDir = .ok workDir) (habs : isAbsolute workDir = true)
    (hnul : '\x00' ∉ path) : host.canonicalize path true = host.canonicalize path false := by
  have hanchorAbs := isAbsolute_anchor habs path
  have hanchorNul : '\x00' ∉ anchor .posix workDir path := fun h =>
    (mem_anchor (by decide) h).elim
      (linkless_canonicalWorkDir hposix hfree hwork habs).nul_not_mem hnul
  rw [canonicalize_lexical hposix hwork]
  cases hunc : isUnc .posix (anchor .posix workDir path) with
  | true =>
      have hresolved : host.resolved path = .ok (anchor .posix workDir path) := by
        simp [resolved_of_workDir hposix hwork, hunc]
      rw [canonicalize_resolved hposix, hresolved]
  | false =>
      have hname : rootName .posix (anchor .posix workDir path) = [] := by
        simpa [isUnc_posix] using hunc
      have hsegments := segments_of_rootName_eq_nil hname
      have hresolved : host.resolved path =
          .ok (Location.path
            (walkFromRoot (split .posix (anchor .posix workDir path)).segments)) := by
        have hreal := realPath_linkfree hposix hfree hanchorAbs hanchorNul
        rw [← hsegments] at hreal
        simpa [resolved_of_workDir hposix hwork, hunc] using hreal
      have hrooted : (split .posix (anchor .posix workDir path)).rooted = true := by
        rw [rooted_eq, hname]
        exact hanchorAbs
      rw [canonicalize_of_resolved hposix (named_walkFromRoot _) hresolved, if_pos hrooted, hname]

theorem canonicalize_dot (hposix : host.platform = .posix) (hfree : host.tree.Linkfree)
    (hwork : host.canonicalWorkDir = .ok workDir) {root : Text}
    (hdot : host.canonicalize dot false = .ok root) :
    host.canonicalize dot true = .ok root := by
  have habs := isAbsolute_of_canonicalize_dot hposix hwork hdot
  rw [canonicalize_resolve hposix hfree hwork habs (by decide), hdot]

theorem canonicalize_join (hposix : host.platform = .posix) (hfree : host.tree.Linkfree)
    (hwork : host.canonicalWorkDir = .ok workDir) {root : Text}
    (hdot : host.canonicalize dot false = .ok root) {names : List Text} (hnames : Named names)
    (hne : names ≠ []) (hnul : '\x00' ∉ Text.join ['/'] names) :
    ∃ above isDirectory, Named above ∧ root = render [] above isDirectory ∧
      host.canonicalize (Text.join ['/'] names) true = .ok (render [] (above ++ names) false) := by
  have habs := isAbsolute_of_canonicalize_dot hposix hwork hdot
  obtain ⟨location, hnamed, -, rfl⟩ := linkless_canonicalWorkDir hposix hfree hwork habs
  have hform : ∀ {pieces : List Text}, (∀ s ∈ pieces, s ≠ [] ∧ '/' ∉ s) → pieces ≠ [] →
      host.canonicalize (Text.join ['/'] pieces) false =
        .ok (render [] (walkFromRoot (location ++ pieces))
          (split .posix (Text.join ['/'] pieces)).isDirectory) := by
    intro pieces h hne
    have hall : ∀ s ∈ location ++ pieces, s ≠ [] ∧ '/' ∉ s := by
      intro s hs
      rcases List.mem_append.1 hs with hs | hs
      · exact hnamed.pieces s hs
      · exact h s hs
    obtain ⟨hname, hrooted, hsegments⟩ := split_path_of_pieces hall (by simp [hne])
    rw [canonicalize_lexical hposix hwork, anchor_join hnamed h hne, if_pos hrooted, hname,
      hsegments]
  have hroot : host.canonicalize dot false =
      .ok (render [] (walkFromRoot (location ++ [dot])) (split .posix dot).isDirectory) :=
    @hform [dot] (by decide) (by decide)
  have hstay : walkFromRoot (location ++ [dot]) = location := by
    have hwalk := walkFromRoot_of_named hnamed
    rw [walkFromRoot] at hwalk ⊢
    rw [List.foldl_append, hwalk]
    simp [walkStep]
  rw [hdot, hstay] at hroot
  refine ⟨location, _, hnamed, Except.ok.inj hroot, ?_⟩
  rw [canonicalize_resolve hposix hfree hwork habs hnul,
    hform hnames.pieces hne, isDirectory_join hnames hne,
    walkFromRoot_of_named (named_append.2 ⟨hnamed, hnames⟩)]

theorem exists_canonicalWorkDir (hposix : host.platform = .posix) (hfree : host.tree.Linkfree)
    (hroot : host.Rooted) (hcwd : host.workDir = some path)
    (hexists : host.isDirectory path = .ok true) :
    ∃ workDir, host.canonicalWorkDir = .ok workDir ∧ HasOneSlash workDir := by
  have hreal := realPath_linkfree hposix hfree (hroot path hcwd) (nul_not_mem_of_ask hexists)
  have hwork : host.canonicalWorkDir = host.realPath path := by
    simp [canonicalWorkDir_posix hposix, hcwd]
  have habs : isAbsolute (Location.path (walkFromRoot ((path.splitOn '/').filter (· ≠ [])))) =
      true := rfl
  obtain ⟨location, hnamed, -, hpath⟩ :=
    linkless_canonicalWorkDir hposix hfree (hwork.trans hreal) habs
  exact ⟨_, hwork.trans hreal, hpath ▸ hasOneSlash_path hnamed⟩

/-- On a host without links it makes no difference whether links are to be resolved. From a working
directory that exists, both ways give the path a canonical form; from another, both fail alike. -/
theorem canonicalize_linkfree (hposix : host.platform = .posix) (hfree : host.tree.Linkfree)
    (hroot : host.Rooted) (hnul : '\x00' ∉ path) :
    host.canonicalize path true = host.canonicalize path false ∧
      ∀ cwd, host.workDir = some cwd → host.isDirectory cwd = .ok true →
        ∃ canonical, IsCanonical canonical ∧ host.canonicalize path true = .ok canonical := by
  have hsame : host.canonicalize path true = host.canonicalize path false := by
    cases hwork : host.canonicalWorkDir with
    | error fault => simp [canonicalize, hwork, bind, Except.bind]
    | ok workDir =>
        exact canonicalize_resolve hposix hfree hwork
          (isAbsolute_canonicalWorkDir hposix hroot hwork) hnul
  refine ⟨hsame, fun cwd hcwd hexists => ?_⟩
  obtain ⟨workDir, hwork, hslash⟩ := exists_canonicalWorkDir hposix hfree hroot hcwd hexists
  obtain ⟨name, segments, isDirectory, hname, hnamed, hform, -⟩ :=
    exists_canonicalize hposix hwork hslash path
  exact ⟨_, ⟨name, segments, isDirectory, hname, hnamed, rfl⟩, hsame.trans hform⟩

def obstructed : Host where
  platform := .posix
  tree := ⟨[(["w".toList], .directory false), (["w".toList, "f".toList], .file [70] false),
    (["w".toList, "s".toList], .directory true)]⟩
  workDir := some "/w/./".toList

/-- A file in the way, a directory that may not be entered and a root above which nothing lies are
all walked through, below a network root as well. -/
theorem canonicalize_linkfree_obstructed :
    obstructed.isDirectory "/w/./".toList = .ok true ∧
      obstructed.canonicalize "f/x/../s/y/../../../../../z/.".toList true = .ok "/z/".toList ∧
      obstructed.canonicalize "//h/../w/s/..//f".toList true = .ok "//h/w/f".toList ∧
      ∃ canonical, IsCanonical canonical ∧ obstructed.canonicalize "//h".toList true =
        .ok canonical := by
  have hfree : obstructed.tree.Linkfree := Tree.linkfree_of_linkCount rfl
  have hrooted : obstructed.Rooted := by
    intro workDir hwork
    obtain rfl := Option.some.inj hwork
    rfl
  have hexists : obstructed.isDirectory "/w/./".toList = .ok true := by cbv
  have hbelow : obstructed.canonicalize "f/x/../s/y/../../../../../z/.".toList false =
      .ok "/z/".toList := by cbv
  have hnetwork : obstructed.canonicalize "//h/../w/s/..//f".toList false =
      .ok "//h/w/f".toList := by cbv
  refine ⟨hexists, ?_, ?_, ?_⟩
  · exact (canonicalize_linkfree rfl hfree hrooted (by decide)).1.trans hbelow
  · exact (canonicalize_linkfree rfl hfree hrooted (by decide)).1.trans hnetwork
  · exact (canonicalize_linkfree rfl hfree hrooted (by decide)).2 _ rfl hexists

end Host

end SourceLoader
