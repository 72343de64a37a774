import Mathlib
import SourceLoader.Proofs.Host.Linkfree
import SourceLoader.Proofs.Host.Route
import SourceLoader.Proofs.Session.Invariant
import SourceLoader.Proofs.Session.Search
import SourceLoader.Proofs.Session.SearchPath

/-!
Reads that no root allows. The candidate below every root lies outside the boundary, so whichever
the search decides for is refused. But the host is asked whether a candidate exists before the
boundary is looked at, and where it fails to answer the read ends with that failure. It does so for
two reasons only: a directory on the way cannot be entered, or a name is too long.

Names without `..`. On a host without links such a name leads further down from the search root that
it is joined to, unless it is empty, and all search roots belong to the boundary. So a read of it is
never denied.
-/

namespace SourceLoader

namespace Errno

/-- Whether a failure is one that a look-up can end with. Only what changes the host or opens a file
fails in other ways. -/
def EndsLookup (e : Errno) : Prop := e ≠ .alreadyExists ∧ e ≠ .isDirectory

instance (e : Errno) : Decidable e.EndsLookup := inferInstanceAs (Decidable (_ ∧ _))

theorem EndsLookup.cases {e : Errno} (h : e.EndsLookup) (habsent : e.meansAbsent = false) :
    e = .accessDenied ∨ e = .nameTooLong := by
  obtain ⟨hexists, hdirectory⟩ := h
  cases e <;> simp_all [meansAbsent]

end Errno

namespace Host

variable {host : Host} {path : Text}

theorem endsLookup_of_checkLength {e : Errno} (h : checkLength path = .error e) :
    e.EndsLookup := by
  unfold checkLength at h
  split at h
  · cases h
    decide
  · split at h
    · cases h
      decide
    · cases h

theorem endsLookup_of_walk {tree : Tree} {followLast : Bool} {links : Nat} {here : Location}
    {components : List Text} {e : Errno}
    (h : walk tree followLast links here components = .error e) : e.EndsLookup := by
  fun_induction walk tree followLast links here components with
  | case1 | case9 => cases h
  | case2 _ _ _ _ _ ih => exact ih h
  | case4 | case5 | case12 | case13 =>
      rename_i ih
      exact ih h
  | case7 => simp at h
  | case3 | case6 | case10 | case14 =>
      cases h
      decide
  | case8 =>
      obtain rfl := Except.error.inj h
      decide
  | case11 =>
      rename_i hcheck
      obtain rfl := Except.error.inj h
      exact endsLookup_of_checkLength hcheck

theorem endsLookup_of_workPlace {e : Errno} (h : host.workPlace = .error e) : e.EndsLookup := by
  unfold workPlace at h
  split at h
  · cases h
    decide
  · cases h
  · split at h
    · cases h
    · cases h
      decide
    · next hlookup =>
      obtain rfl := Except.error.inj h
      unfold lookupFrom at hlookup
      split at hlookup
      · next hcheck => exact endsLookup_of_checkLength (Except.error.inj hlookup ▸ hcheck)
      · exact endsLookup_of_walk hlookup

theorem endsLookup_of_lookup {followLast : Bool} {e : Errno}
    (h : host.lookup followLast path = .error e) : e.EndsLookup := by
  unfold lookup at h
  split at h
  · next houtset =>
    obtain rfl := Except.error.inj h
    unfold outset at houtset
    split at houtset
    · cases houtset
    · exact endsLookup_of_workPlace houtset
  · exact endsLookup_of_walk h
  · next hcheck => exact endsLookup_of_checkLength (Except.error.inj h ▸ hcheck)

theorem endsLookup_of_entryAt {followLast : Bool} {e : Errno}
    (h : host.entryAt (host.lookup followLast path) = .error e) : e.EndsLookup := by
  unfold entryAt at h
  split at h
  · next hlookup => exact endsLookup_of_lookup (Except.error.inj h ▸ hlookup)
  · cases h
    decide
  · split at h
    · cases h
    · cases h
      decide

theorem fault_of_stat {fault : Fault} (h : host.stat path = .error fault) :
    fault = .embeddedNul ∨ ∃ e, fault = .os ⟨e, some path⟩ ∧ e.EndsLookup := by
  unfold stat request at h
  split at h
  · exact .inl (Except.error.inj h).symm
  · split at h
    · cases h
    · next e hentry =>
      exact .inr ⟨e, (Except.error.inj h).symm, endsLookup_of_entryAt hentry⟩

/-- The host answers whether something exists, unless a directory on the way cannot be entered or a
name is too long. -/
theorem errno_of_pathExists {fault : Fault} (h : host.pathExists path = .error fault) :
    ∃ e, fault = .os ⟨e, some path⟩ ∧ (e = .accessDenied ∨ e = .nameTooLong) := by
  unfold pathExists ask at h
  cases hstat : host.stat path with
  | ok entry =>
      rw [hstat] at h
      cases h
  | error fault' =>
      rw [hstat] at h
      rcases fault_of_stat hstat with rfl | ⟨e, rfl, hends⟩
      · cases h
      · simp only at h
        split at h
        · cases h
        · next habsent =>
          exact ⟨e, (Except.error.inj h).symm, hends.cases (by simpa using habsent)⟩

end Host

namespace Session

variable {host : Host} {s : Session} {name : Text} {roots : List Text}

/-- Whether the candidate below a root has a canonical form, and that form may not be read. -/
def Outside (host : Host) (sandbox : Sandbox) (name root : Text) : Prop :=
  ∃ candidate, host.canonicalize (joinSearchPath root name) true = .ok candidate ∧
    sandbox.isAllowed host candidate = .ok false

/-- Whether a search along roots comes to one below which the host fails to tell whether the
candidate exists. -/
def ProbeStops (host : Host) (name : Text) (roots : List Text) (fault : Fault) : Prop :=
  Stops (Missing host name)
    (fun root => ∃ candidate, host.canonicalize (joinSearchPath root name) true = .ok candidate ∧
      host.pathExists (hostPath candidate) = .error fault) roots

theorem findCandidate_eq_error_iff {last : Text} {fault : Fault}
    (h : ∀ root ∈ roots, ∃ candidate,
      host.canonicalize (joinSearchPath root name) true = .ok candidate) :
    findCandidate host name last roots = .error fault ↔ ProbeStops host name roots fault := by
  induction roots generalizing last with
  | nil => simp [findCandidate, ProbeStops]
  | cons root rest ih =>
      obtain ⟨candidate, hcandidate⟩ := h root (by simp)
      have ih := @ih candidate fun r hr => h r (List.mem_cons_of_mem _ hr)
      unfold ProbeStops at ih ⊢
      rw [stops_cons, ← ih]
      simp only [findCandidate, Missing, hcandidate, Except.ok.injEq, exists_eq_left']
      cases hfound : host.pathExists (hostPath candidate) with
      | error failure => simp [bind, Except.bind, hfound]
      | ok found => cases found <;> simp [bind, Except.bind, hfound, pure, Except.pure]

theorem outsideMessage_ne_faultMessage (fault : Fault) : outsideMessage ≠ faultMessage fault := by
  intro h
  have hlead : outsideMessage.head? = some 'F' := by decide
  have hother : (faultMessage fault).head? = some 'E' := rfl
  rw [h, hother] at hlead
  cases hlead

/-- What a read is that no root allows: it is denied, unless the host fails to tell whether a
candidate exists. Then it ends with that failure, which is one of two. The session is left as it
was. -/
theorem read_outside
    (h : ∀ root ∈ s.sandbox.searchPrefixes,
      Outside host s.sandbox (withoutScheme name) root) :
    ((s.read host sourceKind name).1 = .ok ⟨false, outsideMessage⟩ ↔
        ∀ fault, ¬ ProbeStops host (withoutScheme name) s.sandbox.searchPrefixes fault) ∧
      (∀ fault, ProbeStops host (withoutScheme name) s.sandbox.searchPrefixes fault →
        (s.read host sourceKind name).1 = .ok ⟨false, faultMessage fault⟩ ∧
          ∃ e path, fault = .os ⟨e, some path⟩ ∧ (e = .accessDenied ∨ e = .nameTooLong)) ∧
      (s.read host sourceKind name).2.1 = s := by
  have hcanonical : ∀ root ∈ s.sandbox.searchPrefixes, ∃ candidate,
      host.canonicalize (joinSearchPath root (withoutScheme name)) true = .ok candidate := by
    intro root hroot
    obtain ⟨candidate, hcandidate, -⟩ := h root hroot
    exact ⟨candidate, hcandidate⟩
  have hstops := fun fault =>
    @findCandidate_eq_error_iff host (withoutScheme name) s.sandbox.searchPrefixes [] fault
      hcanonical
  simp only [read, if_true, load, find_eq, ← hstops]
  -- The host fails on the way of the search, or the search comes to a candidate, which lies
  -- outside.
  cases hfind : findCandidate host (withoutScheme name) [] s.sandbox.searchPrefixes with
  | error fault =>
      obtain ⟨before, root, after, -, -, candidate, -, hfails⟩ := (hstops fault).1 hfind
      obtain ⟨e, rfl, he⟩ := Host.errno_of_pathExists hfails
      have hne := (outsideMessage_ne_faultMessage (.os ⟨e, some (hostPath candidate)⟩)).symm
      refine ⟨?_, ?_, rfl⟩
      · simp [bind, Except.bind, conclude, hne]
      · rintro fault hfault
        obtain rfl := Except.error.inj hfault
        exact ⟨rfl, e, hostPath candidate, rfl, he⟩
  | ok path =>
      obtain ⟨root, hchosen⟩ :=
        exists_chosen_of_findCandidate (by simp [Sandbox.searchPrefixes]) hfind
      obtain ⟨candidate, hcandidate, hdenied⟩ := h root hchosen.mem
      obtain ⟨-, -, -, -, hpath, -⟩ := hchosen
      obtain rfl := Except.ok.inj (hpath.symm.trans hcandidate)
      have hinspect : inspect host s.sandbox path = .ok (.outside path) := by
        simp [inspect, hdenied, bind, Except.bind, pure, Except.pure]
      simp [bind, Except.bind, hinspect, conclude]

def locked : Host where
  platform := .posix
  tree := ⟨[(["a".toList], .directory false), (["b".toList], .directory false),
    (["locked".toList], .directory true), (["x".toList], .file [88] false)]⟩
  workDir := some ['/']

def searchingTwo : Session where
  sandbox := ⟨"/a".toList, ["/b/".toList], []⟩
  registry := .empty

theorem eq_or_eq_of_mem_searchingTwo {root : Text}
    (h : root ∈ searchingTwo.sandbox.searchPrefixes) :
    root = "/a".toList ∨ root = "/b/".toList := by
  simpa [searchingTwo, Sandbox.searchPrefixes] using h

theorem read_outside_locked :
    (∀ root ∈ searchingTwo.sandbox.searchPrefixes,
        Outside locked searchingTwo.sandbox (withoutScheme "file://../x".toList) root) ∧
      (searchingTwo.read locked sourceKind "file://../x".toList).1 =
        .ok ⟨false, outsideMessage⟩ := by
  have houtside : ∀ root ∈ searchingTwo.sandbox.searchPrefixes,
      Outside locked searchingTwo.sandbox (withoutScheme "file://../x".toList) root := by
    have hdenied : searchingTwo.sandbox.isAllowed locked "/x".toList = .ok false := by cbv
    intro root hroot
    rcases eq_or_eq_of_mem_searchingTwo hroot with rfl | rfl
    · exact ⟨"/x".toList, by cbv, hdenied⟩
    · exact ⟨"/x".toList, by cbv, hdenied⟩
  refine ⟨houtside, (read_outside houtside).1.2 fun fault hstops => ?_⟩
  have hcandidate : locked.canonicalize
      (joinSearchPath "/a".toList (withoutScheme "file://../x".toList)) true =
        .ok "/x".toList := by cbv
  have hexists : locked.pathExists (hostPath "/x".toList) = .ok true := by cbv
  rcases stops_cons.1 hstops with ⟨candidate, hc, hfails⟩ | ⟨⟨candidate, hc, hmissing⟩, -⟩
  · obtain rfl := Except.ok.inj (hc.symm.trans hcandidate)
    rw [hexists] at hfails
    cases hfails
  · obtain rfl := Except.ok.inj (hc.symm.trans hcandidate)
    rw [hexists] at hmissing
    cases hmissing

/-- Behind a directory that cannot be entered nothing is denied: the host's failure is told instead,
with the path that it failed for. -/
theorem read_outside_not_denied :
    (Sandbox.build locked "/a".toList ["/b/".toList] []).1 = .ok searchingTwo.sandbox ∧
      (∀ root ∈ searchingTwo.sandbox.searchPrefixes,
        Outside locked searchingTwo.sandbox (withoutScheme "../locked/x".toList) root) ∧
      (searchingTwo.read locked sourceKind "../locked/x".toList).1 =
        .ok ⟨false, faultMessage (.os ⟨.accessDenied, some "/locked/x".toList⟩)⟩ ∧
      faultMessage (.os ⟨.accessDenied, some "/locked/x".toList⟩) ≠ outsideMessage := by
  have hdenied : searchingTwo.sandbox.isAllowed locked "/locked/x".toList = .ok false := by cbv
  have houtside : ∀ root ∈ searchingTwo.sandbox.searchPrefixes,
      Outside locked searchingTwo.sandbox (withoutScheme "../locked/x".toList) root := by
    intro root hroot
    rcases eq_or_eq_of_mem_searchingTwo hroot with rfl | rfl
    · exact ⟨"/locked/x".toList, by cbv, hdenied⟩
    · exact ⟨"/locked/x".toList, by cbv, hdenied⟩
  have hfind : find locked searchingTwo.sandbox "../locked/x".toList =
      .error (.os ⟨.accessDenied, some "/locked/x".toList⟩) := by cbv
  refine ⟨by cbv, houtside, ?_, (outsideMessage_ne_faultMessage _).symm⟩
  simp only [read, if_true, load, hfind]
  rfl

end Session

/-! ## Names that are not denied -/

open SourceLoader.Path Location

namespace Session

variable {host : Host} {s : Session} {root name : Text}

/-- A name that is not empty and climbs nowhere leads further down from a search root. -/
theorem isBelow_joinSearchPath (hposix : host.platform = .posix) (hfree : host.tree.Linkfree)
    (hroot : IsCanonical root) (hpiece : ∃ piece ∈ name.splitOn '/', piece ≠ [] ∧ piece ≠ dot)
    (hup : dotDot ∉ name.splitOn '/') {top candidate : Text}
    (htop : host.canonicalize root true = .ok top)
    (hcandidate : host.canonicalize (joinSearchPath root name) true = .ok candidate) :
    isBelow .posix top candidate = .ok true := by
  have hrest := head?_dropWhile_slash name
  have hjoin : joinSearchPath root name =
      trimSlashes root ++ '/' :: name.dropWhile (· = '/') := by
    rw [joinSearchPath, if_neg hroot.comparable.ne_nil]
  have hrooted := rooted_joinSearchPath hroot name
  obtain ⟨added, hadded, hwalk⟩ : ∃ added, added ≠ [] ∧
      walkFromRoot ((split .posix root).segments ++ (name.splitOn '/').filter (· ≠ [])) =
        walkFromRoot (split .posix root).segments ++ added := by
    obtain ⟨piece, hmem, hne, hdot⟩ := hpiece
    refine ⟨((name.splitOn '/').filter (· ≠ [])).filter (· ≠ dot),
      List.ne_nil_of_mem (a := piece) (by simp [hmem, hne, hdot]), ?_⟩
    rw [walkFromRoot, List.foldl_append]
    exact foldl_walkStep_of_dotDot_not_mem (fun h => hup (List.mem_filter.1 h).1) _
  obtain rfl := Host.canonicalize_of_rooted hposix hfree hroot.rooted htop
  obtain rfl := Host.canonicalize_of_rooted hposix hfree hrooted hcandidate
  rw [isBelow_render (isRootName_rootName _) (isRootName_rootName _) (named_walkFromRoot _)
    (named_walkFromRoot _), hjoin, rootName_below root hrest, segments_below root hrest,
    filter_splitOn_dropWhile_slash, hwalk]
  simp [hadded]

theorem not_outside_of_name (hposix : host.platform = .posix) (hfree : host.tree.Linkfree)
    (hs : s.sandbox.WellFormed) (hbase : s.sandbox.basePath ≠ [])
    (hpiece : ∃ piece ∈ name.splitOn '/', piece ≠ [] ∧ piece ≠ dot)
    (hup : dotDot ∉ name.splitOn '/') (hroot : root ∈ s.sandbox.searchPrefixes) :
    ¬ Outside host s.sandbox name root := by
  rintro ⟨candidate, hcandidate, hdenied⟩
  have hmem : root ∈ s.sandbox.boundary := by
    rw [Sandbox.boundary, if_neg hbase]
    exact List.mem_append_right _ hroot
  obtain ⟨top, htop, hbelow⟩ := Sandbox.not_below_of_liesBelowAny hdenied root hmem
  have hcanonical := hs.isCanonical_of_mem_searchPrefixes hbase hroot
  rw [hposix, isBelow_joinSearchPath hposix hfree hcanonical hpiece hup htop hcandidate] at hbelow
  cases hbelow

theorem isAllowed_of_inspect_outside {sandbox : Sandbox} {path path' : Text}
    (h : inspect host sandbox path = .ok (.outside path')) :
    sandbox.isAllowed host path = .ok false := by
  obtain ⟨allowed, hallowed, h⟩ := bind_eq_ok.1 h
  cases allowed with
  | false => exact hallowed
  | true =>
      obtain ⟨found, -, h⟩ := bind_eq_ok.1 h
      cases found with
      | false => cases h
      | true =>
          obtain ⟨file, -, h⟩ := bind_eq_ok.1 h
          cases file with
          | false => cases h
          | true =>
              obtain ⟨text, -, h⟩ := bind_eq_ok.1 h
              cases h

theorem exists_outside_of_read
    (h : (s.read host sourceKind name).1 = .ok ⟨false, outsideMessage⟩) :
    ∃ root ∈ s.sandbox.searchPrefixes, Outside host s.sandbox (withoutScheme name) root := by
  simp only [read, if_true, load] at h
  cases hfind : find host s.sandbox name with
  | error fault =>
      have hne := (outsideMessage_ne_faultMessage fault).symm
      cases fault <;> simp [hfind, conclude, hne] at h
  | ok finding =>
      cases finding with
      | loaded path text => simp [hfind, conclude] at h
      | notFound path =>
          rw [hfind] at h
          exact absurd (congrArg Answer.content (Except.ok.inj h)) (by decide)
      | notRegular path =>
          rw [hfind] at h
          exact absurd (congrArg Answer.content (Except.ok.inj h)) (by decide)
      | outside path =>
          rw [find_eq] at hfind
          obtain ⟨found, hcandidate, hinspect⟩ := bind_eq_ok.1 hfind
          obtain ⟨root, hchosen⟩ :=
            exists_chosen_of_findCandidate (by simp [Sandbox.searchPrefixes]) hcandidate
          have hmem := hchosen.mem
          obtain ⟨-, -, -, -, hcanonical, -⟩ := hchosen
          exact ⟨root, hmem, found, hcanonical, isAllowed_of_inspect_outside hinspect⟩

/-- On a host without links, a name that is not empty and climbs nowhere is never denied while a
base path is set: the candidate below every search root lies inside the boundary, whichever the
search decides for and whatever exists there. -/
theorem read_not_outside (hposix : host.platform = .posix) (hfree : host.tree.Linkfree)
    (h : Reachable s) (hbase : s.sandbox.basePath ≠ [])
    (hpiece : ∃ piece ∈ (withoutScheme name).splitOn '/', piece ≠ [] ∧ piece ≠ dot)
    (hup : dotDot ∉ (withoutScheme name).splitOn '/') :
    (∀ root ∈ s.sandbox.searchPrefixes, ¬ Outside host s.sandbox (withoutScheme name) root) ∧
      (s.read host sourceKind name).1 ≠ .ok ⟨false, outsideMessage⟩ := by
  have hinside : ∀ root ∈ s.sandbox.searchPrefixes,
      ¬ Outside host s.sandbox (withoutScheme name) root :=
    fun _ hroot => not_outside_of_name hposix hfree h.wellFormed hbase hpiece hup hroot
  refine ⟨hinside, fun hread => ?_⟩
  obtain ⟨root, hroot, houtside⟩ := exists_outside_of_read hread
  exact hinside root hroot houtside

def hall : Host where
  platform := .posix
  tree := ⟨[(["h".toList], .directory false), (["h".toList, "s".toList], .directory false),
    (["h".toList, "s".toList, "f".toList], .file [70] false)]⟩
  workDir := some "/h".toList

def visiting : Session where
  sandbox := ⟨"//h/s/".toList, ["/".toList], []⟩
  registry := .empty

/-- A name that looks absolute is read below the network root, and another one that is found nowhere
is said to be missing and not denied. -/
theorem read_not_outside_visiting :
    Reachable visiting ∧ hall.tree.Linkfree ∧
      (visiting.read hall sourceKind "file:////./f".toList).1 = .ok ⟨true, ['F']⟩ ∧
      (visiting.read hall sourceKind "file:////./g/".toList).1 = .ok ⟨false, notFoundMessage⟩ ∧
      ∀ root ∈ visiting.sandbox.searchPrefixes,
        ¬ Outside hall visiting.sandbox (withoutScheme "file:////./g/".toList) root := by
  have hbuilt : (Sandbox.build hall "//h/s/".toList ["/".toList] []).1 = .ok visiting.sandbox := by
    cbv
  have hreach : Reachable visiting := .start rfl hbuilt []
  have hfree : hall.tree.Linkfree := Tree.linkfree_of_linkCount rfl
  have hpiece : ∃ piece ∈ (withoutScheme "file:////./g/".toList).splitOn '/',
      piece ≠ [] ∧ piece ≠ dot := ⟨"g".toList, by decide, by decide, by decide⟩
  obtain ⟨houtside, -⟩ := read_not_outside rfl hfree hreach (by decide) hpiece (by decide)
  exact ⟨hreach, hfree, by cbv, by cbv, houtside⟩

end Session

end SourceLoader
