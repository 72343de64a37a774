import Mathlib
import SourceLoader.Proofs.Host.Leading
import SourceLoader.Proofs.Program.Report
import SourceLoader.Proofs.Session.Failure
import SourceLoader.Proofs.Session.Invariant

/-!
The files next to an input. The directory of an input is one of those that a run allows. It is
stored as its path says, and its links are resolved each time that a file is compared with it. So a
file next to an input may be read where the stored path still leads to the directory that the input
was opened in.
-/

namespace SourceLoader

open SourceLoader.Path Location

namespace Sandbox

variable {host : Host} {s s' : Sandbox} {notices : List Notice}

theorem allowed_subset_of_apply {change : Change} (h : s.apply host change = .ok (s', notices)) :
    s.allowed ⊆ s'.allowed := by
  cases change with
  | setBasePath path =>
      obtain ⟨basePath, rfl, -⟩ := setBasePath_eq_ok h
      exact List.Subset.refl s.allowed
  | addIncludePath path =>
      obtain ⟨-, directory, -, rfl⟩ := addIncludePath_eq_ok h
      exact List.Subset.refl s.allowed
  | allowDirectory path =>
      obtain ⟨directory, -, ⟨-, rfl⟩ | ⟨-, rfl⟩⟩ := allowDirectory_eq_ok h
      · exact List.Subset.refl s'.allowed
      · exact fun d hd => mem_insertDirectory.2 (.inr hd)

theorem allowed_subset_of_applyAll {changes : List Change}
    (h : (s.applyAll host changes).1 = .ok s') : s.allowed ⊆ s'.allowed := by
  induction changes generalizing s with
  | nil => exact Except.ok.inj h ▸ List.Subset.refl s.allowed
  | cons change rest ih =>
      unfold applyAll at h
      split at h
      · cases h
      · next happly => exact List.Subset.trans (allowed_subset_of_apply happly) (ih h)

theorem exists_allowed_of_applyAll {changes : List Change} {path : Text}
    (h : (s.applyAll host changes).1 = .ok s') (hmem : .allowDirectory path ∈ changes) :
    ∃ directory ∈ s'.allowed, host.canonicalize path false = .ok directory := by
  induction changes generalizing s with
  | nil => cases hmem
  | cons change rest ih =>
      unfold applyAll at h
      split at h
      · cases h
      · next happly =>
        rcases List.mem_cons.1 hmem with rfl | hmem
        · obtain ⟨directory, hdirectory, hstored⟩ := allowDirectory_eq_ok happly
          refine ⟨directory, allowed_subset_of_applyAll h ?_, hdirectory⟩
          rcases hstored with ⟨hold, rfl⟩ | ⟨-, rfl⟩
          · exact hold
          · exact mem_insertDirectory.2 (.inl rfl)
        · exact ih h hmem

end Sandbox

namespace Program

variable {host : Host} {config : Config} {sandbox : Sandbox} {item cwd : Text}
  {work directory : Location} {denied : Bool}

theorem exists_allowed_of_input (hsandbox : sandboxFor host config = .ok sandbox)
    (hitem : item ∈ config.inputFiles) :
    ∃ stored ∈ sandbox.allowed, host.canonicalize (inputDirectory item) false = .ok stored := by
  refine Sandbox.exists_allowed_of_applyAll hsandbox ?_
  simp only [Sandbox.setup, List.mem_append, List.mem_map]
  exact .inr ⟨inputDirectory item, .inr ⟨item, hitem, rfl⟩, rfl⟩

/-- Everything below the directory that an input is found in may be read, unless the directory is
given under a network root, or its path goes up behind a link and is stored as one that leads
elsewhere, or the comparison with the boundary fails before it comes to the directory. -/
theorem isAllowed_beside_input (hposix : host.platform = .posix) (htrace : host.Traceable)
    (hcwd : host.workDir = some cwd) (habs : isAbsolute cwd = true)
    (hwork : host.lookup true cwd = .ok (.existing work))
    (hsandbox : sandboxFor host config = .ok sandbox) (hitem : item ∈ config.inputFiles)
    (hnetwork : rootName .posix (inputDirectory item) = [])
    (hlookup : host.lookup true (inputDirectory item) = .ok (.existing directory))
    (hdir : host.tree.get? directory = some (.directory denied))
    (hleads : host.RisesFirst work (inputDirectory item) ∨
      ∃ stored above, host.canonicalize (inputDirectory item) false = .ok stored ∧
        host.LeadsTo stored above ∧ above <+: directory) :
    ∀ (below : Location) (isDirectory : Bool), below ≠ [] → Named below →
      (∀ fault, ¬ Sandbox.CheckFails host (render [] (directory ++ below) isDirectory)
        sandbox.boundary fault) →
      sandbox.isAllowed host (render [] (directory ++ below) isDirectory) = .ok true := by
  intro below isDirectory hbelow hnames hpass
  have hstands := Host.stands_of_lookup habs hwork
  have hnamed : Named work := hstands.clear.named
  have hworkDir := Host.canonicalWorkDir_of_lookup hposix htrace hcwd habs hwork
  have hne : inputDirectory item ≠ [] := by
    intro hnil
    simp [hnil, Host.lookup, Host.checkLength] at hlookup
  obtain ⟨links, hroute⟩ := Host.exists_route_of_outset
    (Host.outset_of_lookup hcwd habs hwork (inputDirectory item)) hlookup
  obtain ⟨stored, hmem, hstored⟩ := exists_allowed_of_input hsandbox hitem
  -- In both cases the stored directory leads to a place on the way to that of the input.
  obtain ⟨above, hthere, habove⟩ : ∃ above, host.LeadsTo stored above ∧ above <+: directory := by
    rcases hleads with hrises | ⟨stored', above, hstored', hthere, habove⟩
    · exact ⟨directory, Host.leadsTo_of_risesFirst hposix hworkDir hstands hne hnetwork hrises
        hroute hdir hstored, List.prefix_refl directory⟩
    · obtain rfl := Except.ok.inj (hstored'.symm.trans hstored)
      exact ⟨above, hthere, habove⟩
  obtain ⟨hsegments, hform⟩ := Host.canonicalize_of_workDir hposix hworkDir hnamed hne hnetwork
  obtain rfl := Except.ok.inj (hform.symm.trans hstored)
  obtain ⟨hnamedAbove, _, htop⟩ :=
    Host.canonicalize_of_leadsTo hposix htrace hworkDir hnamed hsegments hthere
  have hdirectory := (hroute.stands (hstands.origin (inputDirectory item))).clear.named
  have hall : Named (directory ++ below) := named_append.2 ⟨hdirectory, hnames⟩
  have hstrict : above ≠ directory ++ below := by
    rintro rfl
    have hlength := habove.length_le
    rw [List.length_append] at hlength
    have hpos := List.length_pos_iff.2 hbelow
    omega
  refine Sandbox.liesBelowAny_of_not_fails hposix ⟨[], _, isDirectory, .inl rfl, hall, rfl⟩ hpass
    (List.mem_append_left _ hmem) htop ?_
  rw [isBelow_render (.inl rfl) (.inl rfl) hnamedAbove hall]
  simpa using ⟨habove.trans (List.prefix_append directory below), hstrict⟩

def porch : Host where
  platform := .posix
  tree := ⟨[(["d".toList], .link "d///x".toList), (["w".toList], .directory false),
    (["w".toList, "l".toList], .link "/x/y".toList), (["x".toList], .directory false),
    (["x".toList, "f".toList], .file [70] false), (["x".toList, "g".toList], .file [71] false),
    (["x".toList, "y".toList], .directory false),
    (["x".toList, "y".toList, "f".toList], .file [70] false),
    (["x".toList, "y".toList, "g".toList], .file [71] false)]⟩
  workDir := some "/w".toList

def visit (item : Text) (allowed : List Text) : Config where
  basePath := some "/w".toList
  includePaths := []
  allowedDirectories := allowed
  inputFiles := [item]
  readStdin := false
  resolveNames := []

/-- The input goes up and down again before it follows the link. -/
theorem isAllowed_beside_input_porch :
    sandboxFor porch (visit "../w/l/./f".toList []) =
        .ok ⟨"/w".toList, [], ["/w/l".toList]⟩ ∧
      Sandbox.isAllowed porch ⟨"/w".toList, [], ["/w/l".toList]⟩ "/x/y/g".toList = .ok true := by
  have htrace : porch.Traceable := (Host.reachable_of_entries (by decide)).traceable
  have hsandbox : sandboxFor porch (visit "../w/l/./f".toList []) =
      .ok ⟨"/w".toList, [], ["/w/l".toList]⟩ := by cbv
  have hwork : porch.lookup true "/w".toList = .ok (.existing ["w".toList]) := by cbv
  have hlookup : porch.lookup true (inputDirectory "../w/l/./f".toList) =
      .ok (.existing ["x".toList, "y".toList]) := by cbv
  have hrises : porch.RisesFirst ["w".toList] (inputDirectory "../w/l/./f".toList) :=
    ⟨[dotDot, "w".toList], ["l".toList], ["w".toList], by cbv,
      .step (.up rfl) (.step (.enter rfl (by decide) (by decide) rfl (by simp)) .arrive),
      by decide⟩
  refine ⟨hsandbox, isAllowed_beside_input rfl htrace rfl rfl hwork hsandbox (by simp [visit])
    (by cbv) hlookup rfl (.inl hrises) ["g".toList] false (by simp) (by decide) fun fault h => ?_⟩
  have htop : porch.canonicalize "/w/l".toList true = .ok "/x/y".toList := by cbv
  have hbelow : isBelow .posix "/x/y".toList "/x/y/g".toList = .ok true := by cbv
  rcases stops_cons.1 h with hfault | ⟨⟨top, htop', hno⟩, -⟩
  · cases htop.symm.trans hfault
  · obtain rfl := Except.ok.inj (htop.symm.trans htop')
    cases hbelow.symm.trans hno

/-- Whether the files next to every input that can be read may be read as well. -/
def AllowsBeside (host : Host) (config : Config) : Prop :=
  ∀ item ∈ config.inputFiles, ∀ text directory denied name entry,
    host.readText item = .ok text →
    host.lookup true (inputDirectory item) = .ok (.existing directory) →
    host.tree.get? directory = some (.directory denied) →
    host.tree.get? (directory ++ [name]) = some entry →
    ∃ sandbox, sandboxFor host config = .ok sandbox ∧
      sandbox.isAllowed host (Location.path (directory ++ [name])) = .ok true

theorem not_allowsBeside_of_isAllowed {text name : Text} {entry : Entry}
    {answer : Except Fault Bool} (hitem : item ∈ config.inputFiles)
    (hread : host.readText item = .ok text)
    (hlookup : host.lookup true (inputDirectory item) = .ok (.existing directory))
    (hsandbox : sandboxFor host config = .ok sandbox)
    (hanswer : sandbox.isAllowed host (Location.path (directory ++ [name])) = answer)
    (hdir : host.tree.get? directory = some (.directory denied))
    (hentry : host.tree.get? (directory ++ [name]) = some entry) (hno : answer ≠ .ok true) :
    ¬ AllowsBeside host config := by
  intro h
  obtain ⟨sandbox', hsandbox', hallowed⟩ :=
    h item hitem text directory denied name entry hread hlookup hdir hentry
  obtain rfl := Except.ok.inj (hsandbox.symm.trans hsandbox')
  exact hno (hanswer.symm.trans hallowed)

/-- Under a network root, behind a link that is gone up from, and where another directory cannot be
canonicalized, files next to an input may not be read. -/
theorem not_allowsBeside :
    ¬ AllowsBeside porch (visit "//x/y/f".toList []) ∧
      ¬ AllowsBeside porch (visit "l/../f".toList []) ∧
      ¬ AllowsBeside porch (visit "../x/f".toList ["/d".toList]) := by
  refine ⟨?_, ?_, ?_⟩
  · have hread : porch.readText "//x/y/f".toList = .ok ['F'] := by cbv
    have hlookup : porch.lookup true (inputDirectory "//x/y/f".toList) =
        .ok (.existing ["x".toList, "y".toList]) := by cbv
    have hbuilt : sandboxFor porch (visit "//x/y/f".toList []) =
        .ok ⟨"/w".toList, [], ["//x/y".toList]⟩ := by cbv
    have hno : Sandbox.isAllowed porch ⟨"/w".toList, [], ["//x/y".toList]⟩
        (Location.path (["x".toList, "y".toList] ++ ["g".toList])) = .ok false := by cbv
    exact not_allowsBeside_of_isAllowed (by simp [visit]) hread hlookup hbuilt hno rfl rfl (by simp)
  · have hread : porch.readText "l/../f".toList = .ok ['F'] := by cbv
    have hlookup : porch.lookup true (inputDirectory "l/../f".toList) =
        .ok (.existing ["x".toList]) := by cbv
    have hbuilt : sandboxFor porch (visit "l/../f".toList []) =
        .ok ⟨"/w".toList, [], ["/w/".toList]⟩ := by cbv
    have hno : Sandbox.isAllowed porch ⟨"/w".toList, [], ["/w/".toList]⟩
        (Location.path (["x".toList] ++ ["g".toList])) = .ok false := by cbv
    exact not_allowsBeside_of_isAllowed (by simp [visit]) hread hlookup hbuilt hno rfl rfl (by simp)
  · have hread : porch.readText "../x/f".toList = .ok ['F'] := by cbv
    have hlookup : porch.lookup true (inputDirectory "../x/f".toList) =
        .ok (.existing ["x".toList]) := by cbv
    have hbuilt : sandboxFor porch (visit "../x/f".toList ["/d".toList]) =
        .ok ⟨"/w".toList, [], ["/d".toList, "/x".toList]⟩ := by cbv
    have hno : Sandbox.isAllowed porch ⟨"/w".toList, [], ["/d".toList, "/x".toList]⟩
        (Location.path (["x".toList] ++ ["g".toList])) =
          .error (.violation (.anchoredPathNotRooted "//x".toList)) := by cbv
    exact not_allowsBeside_of_isAllowed (by simp [visit]) hread hlookup hbuilt hno rfl rfl (by simp)

end Program

end SourceLoader
