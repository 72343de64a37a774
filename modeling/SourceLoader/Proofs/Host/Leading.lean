import Mathlib
import SourceLoader.Proofs.Host.Resolution
import SourceLoader.Proofs.Host.Retraction

/-!
Where a path leads after it has been stored. A path is stored without a look at the host: it is
anchored in the working directory, and each `..` takes away the name before it. A link can lead to a
directory elsewhere, whose parent is not where the link stands. So the stored path leads where the
path as given does if that goes up only before it follows links.
-/

namespace SourceLoader

open SourceLoader.Path Location

namespace Path

/-- The place that a walk along the components of a path reaches from a place. -/
def walkAlong (here : Location) (components : List Text) : Location :=
  (components.filter (· ≠ [])).foldl walkStep here

/-- The components that a walk descends along: neither empty nor `.`. -/
def descents (components : List Text) : List Text := components.filter fun c => c ≠ [] ∧ c ≠ dot

theorem walkAlong_append (here : Location) (front back : List Text) :
    walkAlong here (front ++ back) = walkAlong (walkAlong here front) back := by
  simp [walkAlong]

theorem walkAlong_of_dotDot_not_mem {components : List Text} (h : dotDot ∉ components)
    (here : Location) : walkAlong here components = here ++ descents components := by
  unfold walkAlong
  induction components generalizing here with
  | nil => simp [descents]
  | cons component components ih =>
      obtain ⟨hne, hrest⟩ := List.ne_and_not_mem_of_not_mem_cons h
      by_cases hnil : component = []
      · simpa [descents, hnil] using ih hrest here
      · by_cases hdot : component = dot
        · simpa [descents, walkStep, hdot, dot] using ih hrest here
        · have hstep : walkStep here component = here ++ [component] := by
            simp [walkStep, hdot, hne.symm]
          rw [List.filter_cons_of_pos (by simpa using hnil), List.foldl_cons, hstep, ih hrest]
          simp [descents, hnil, hdot]

section

variable {path : Text} {work : Location}

theorem anchor_path_of_relative (hwork : Named work) (hne : path ≠ [])
    (hrel : isAbsolute path = false) :
    anchor .posix (Location.path work) path =
      (if work = [] then [] else Location.path work) ++ '/' :: path := by
  have htrim := trimSlashes_render (.inl rfl) hwork false
  rw [render_eq, mark, if_neg (by simp), List.append_nil, List.nil_append, List.nil_append] at htrim
  rw [anchor_of_relative hne hrel, htrim]

theorem segments_anchor (hwork : Named work) (hne : path ≠ []) (hname : rootName .posix path = []) :
    rootName .posix (anchor .posix (Location.path work) path) = [] ∧
      (split .posix (anchor .posix (Location.path work) path)).segments =
        Host.origin path work ++ (path.splitOn '/').filter (· ≠ []) := by
  -- An absolute path stays as it is, and any other is put behind the working directory.
  cases habs : isAbsolute path with
  | true =>
      have horigin : Host.origin path work = [] := if_pos habs
      have hrooted : (split .posix path).rooted = true := by
        rw [rooted_eq, hname]
        exact habs
      have hanchor : anchor .posix (Location.path work) path = path := by
        rw [anchor_of_rooted hrooted, if_pos hname, (hasOneSlash_path hwork).rootName_eq]
        rfl
      rw [hanchor]
      exact ⟨hname, by rw [segments_of_rootName_eq_nil hname, horigin, List.nil_append]⟩
  | false =>
      have hhead : path.head? ≠ some '/' := by simpa [isAbsolute] using habs
      have horigin : Host.origin path work = work := if_neg (by simp [habs])
      rw [anchor_path_of_relative hwork hne habs, horigin]
      by_cases hroot : work = []
      · subst hroot
        have hnone : rootName .posix ('/' :: path) = [] := rootName_slash hhead
        refine ⟨hnone, (segments_of_rootName_eq_nil hnone).trans ?_⟩
        rw [Text.splitOn_slash]
        simp
      · have hsplit : (Location.path work ++ '/' :: path).splitOn '/' =
            (Location.path work).splitOn '/' ++ path.splitOn '/' :=
          List.splitOn_append_cons_self (Location.path work) path
        have hnone : rootName .posix (Location.path work ++ '/' :: path) = [] :=
          rootName_slash (head?_join_ne_slash hwork _ fun he => absurd he hroot)
        rw [if_neg hroot]
        refine ⟨hnone, (segments_of_rootName_eq_nil hnone).trans ?_⟩
        rw [hsplit, List.filter_append, filter_splitOn_path hwork]

end

end Path

namespace Tree

variable {tree : Tree} {here there last location : Location} {components front back : List Text}
  {m n : Nat}

theorem Route.append (h : tree.Route here front n there) (h' : tree.Route there back m last) :
    tree.Route here (front ++ back) (n + m) last := by
  induction h with
  | arrive => simpa using h'
  | step first onward ih => exact .step first (ih h')
  | @follow here there last name target rest k l directory named short link inner onward ihInner
      ihOnward =>
      have hcount : k + l + 1 + m = k + (l + m) + 1 := by omega
      rw [hcount]
      exact .follow directory named short link inner (ihOnward h')

theorem Stands.route (h : tree.Stands location) : tree.Route [] location 0 location := by
  obtain ⟨hclear, entry, hentry, hsolid⟩ := h
  induction hclear generalizing entry with
  | root => exact .arrive
  | enter above directory named short ih =>
      have hlast := Step.enter directory named short hentry hsolid
      exact (ih _ directory (by simp)).append (.step hlast .arrive)

theorem Route.eq_walkAlong (h : tree.Route here components n last) (hlinks : n = 0) :
    last = walkAlong here components := by
  unfold walkAlong
  induction h with
  | arrive => rfl
  | step first onward ih =>
      have hrest := ih hlinks
      cases first with
      | slash => simpa using hrest
      | stay => simpa [walkStep, dot] using hrest
      | up => simpa [walkStep, dotDot, dot] using hrest
      | enter directory named =>
          simpa [walkStep, named.ne_nil, named.ne_dot, named.ne_dotDot] using hrest
  | follow => cases hlinks

theorem Route.descents (h : tree.Route here components n last) (hdown : dotDot ∉ components) :
    tree.Route here (Path.descents components) n last := by
  induction h with
  | arrive => exact .arrive
  | step first onward ih =>
      have hrest := ih (List.not_mem_of_not_mem_cons hdown)
      cases first with
      | slash => simpa [Path.descents] using hrest
      | stay => simpa [Path.descents] using hrest
      | up => simp at hdown
      | enter directory named short stands solid =>
          have hkept := Route.step (.enter directory named short stands solid) hrest
          simpa [Path.descents, named.ne_nil, named.ne_dot] using hkept
  | follow directory named short link inner onward ihInner ihOnward =>
      have hkept := Route.follow directory named short link inner
        (ihOnward (List.not_mem_of_not_mem_cons hdown))
      simpa [Path.descents, named.ne_nil, named.ne_dot] using hkept

end Tree

namespace Host

variable {host : Host} {path cwd : Text} {work location : Location} {denied : Bool}

/-- Whether the route along an absolute path ends at a place. -/
def LeadsTo (host : Host) (path : Text) (location : Location) : Prop :=
  ∃ links, host.tree.Route [] (path.splitOn '/') links location

/-- Whether a path that is seen from a place goes up only before it follows links. -/
def RisesFirst (host : Host) (here : Location) (path : Text) : Prop :=
  ∃ front back there, path.splitOn '/' = front ++ back ∧
    host.tree.Route (origin path here) front 0 there ∧ dotDot ∉ back

theorem leadsTo_render (hdir : host.tree.get? location = some (.directory denied))
    {segments : List Text} (hnamed : Named segments) {links : Nat}
    (hroute : host.tree.Route [] segments links location) (isDirectory : Bool) :
    host.LeadsTo (render [] segments isDirectory) location := by
  obtain ⟨slash, hslash, hsplit⟩ := splitOn_marked hnamed isDirectory
  obtain ⟨_, hroot⟩ := host.tree.get?_root
  have hend : host.tree.Route location slash 0 location := by
    rcases hslash with rfl | rfl
    · exact .arrive
    · exact .step (.slash hdir) .arrive
  rw [LeadsTo, render_eq, List.nil_append, hsplit]
  exact ⟨_, .step (.slash hroot) (hroute.append hend)⟩

theorem canonicalWorkDir_of_lookup (hposix : host.platform = .posix) (htrace : host.Traceable)
    (hcwd : host.workDir = some cwd) (habs : isAbsolute cwd = true)
    (hwork : host.lookup true cwd = .ok (.existing work)) :
    host.canonicalWorkDir = .ok (Location.path work) := by
  rw [canonicalWorkDir_posix hposix, hcwd]
  exact realPath_of_lookup hposix htrace habs hwork

theorem outset_of_lookup (hcwd : host.workDir = some cwd) (habs : isAbsolute cwd = true)
    (hwork : host.lookup true cwd = .ok (.existing work)) (path : Text) :
    host.outset path = .ok (origin path work) := by
  obtain ⟨rest, rfl⟩ := isAbsolute_iff.1 habs
  rw [lookup_of_isAbsolute host true habs] at hwork
  have hplace : host.workPlace = .ok work := by
    simp [workPlace, hcwd, hwork]
  unfold outset origin
  split
  · rfl
  · exact hplace

/-- A path without a network root is stored as the names of the place that a walk along it reaches
from where it begins. -/
theorem canonicalize_of_workDir (hposix : host.platform = .posix)
    (hwork : host.canonicalWorkDir = .ok (Location.path work)) (hnamed : Named work)
    (hne : path ≠ []) (hname : rootName .posix path = []) :
    Named (walkAlong (origin path work) (path.splitOn '/')) ∧
      host.canonicalize path false =
        .ok (render [] (walkAlong (origin path work) (path.splitOn '/'))
          (split .posix path).isDirectory) := by
  obtain ⟨hanchor, hsegments⟩ := segments_anchor hnamed hne hname
  have horigin : Named (origin path work) := by
    unfold origin
    split
    · exact named_nil
    · exact hnamed
  have hplace : walkFromRoot (split .posix (anchor .posix (Location.path work) path)).segments =
      walkAlong (origin path work) (path.splitOn '/') := by
    have hstart : (origin path work).foldl walkStep [] = origin path work :=
      walkFromRoot_of_named horigin
    rw [hsegments, walkFromRoot, List.foldl_append, hstart, walkAlong]
  rw [← hplace, canonicalize_lexical hposix hwork,
    if_pos (rooted_anchor (hasOneSlash_path hnamed) path), hanchor]
  exact ⟨named_walkFromRoot _, rfl⟩

/-- What is stored for a path to a directory leads to that directory, if the path goes up only
before it follows links. -/
theorem leadsTo_of_risesFirst (hposix : host.platform = .posix)
    (hwork : host.canonicalWorkDir = .ok (Location.path work)) (hstands : host.tree.Stands work)
    (hne : path ≠ []) (hname : rootName .posix path = []) (hrises : host.RisesFirst work path)
    {links : Nat} (hroute : host.tree.Route (origin path work) (path.splitOn '/') links location)
    (hdir : host.tree.get? location = some (.directory denied)) {stored : Text}
    (hstored : host.canonicalize path false = .ok stored) : host.LeadsTo stored location := by
  obtain ⟨front, back, there, hsplit, hfront, hback⟩ := hrises
  obtain ⟨hnamed, hform⟩ := canonicalize_of_workDir hposix hwork hstands.clear.named hne hname
  obtain rfl := Except.ok.inj (hform.symm.trans hstored)
  rw [hsplit] at hroute
  obtain ⟨there', k, m, hup, hdown⟩ := hroute.split
  obtain ⟨-, rfl⟩ := hfront.unique hup
  -- The walk and the route come to one place before the first link, and go on along the same names.
  have hplace : walkAlong (origin path work) (path.splitOn '/') = there' ++ descents back := by
    rw [hsplit, walkAlong_append, ← hfront.eq_walkAlong rfl, walkAlong_of_dotDot_not_mem hback]
  have hstraight := (hfront.stands (hstands.origin path)).route
  rw [hplace] at hnamed ⊢
  exact leadsTo_render hdir hnamed (hstraight.append (hdown.descents hback)) _

theorem canonicalize_of_leadsTo (hposix : host.platform = .posix) (htrace : host.Traceable)
    (hwork : host.canonicalWorkDir = .ok (Location.path work)) (hnamed : Named work)
    {segments : List Text} {isDirectory : Bool} (hsegments : Named segments)
    (hleads : host.LeadsTo (render [] segments isDirectory) location) :
    Named location ∧ ∃ isDirectory',
      host.canonicalize (render [] segments isDirectory) true =
        .ok (render [] location isDirectory') := by
  obtain ⟨links, hroute⟩ := hleads
  have hlocation : Named location := (hroute.stands (Tree.stands_root _)).clear.named
  have hanchor := anchor_render (.inl rfl) hsegments isDirectory
    fun _ => (hasOneSlash_path hnamed).rootName_eq
  have hreal := realPath_of_route hposix htrace rfl hroute
  have hresolved : host.resolved (render [] segments isDirectory) = .ok (Location.path location) := by
    rw [resolved_of_workDir hposix hwork, hanchor, isUnc_posix, rootName_render (.inl rfl) hsegments]
    exact hreal
  exact ⟨hlocation, _, canonicalize_of_resolved hposix hlocation hresolved⟩

end Host

end SourceLoader
