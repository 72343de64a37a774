import SourceLoader.Fault
import SourceLoader.Proofs.Host.Rebuild

/-!
How a step can fail. A step that is made of others fails with what one of them fails with, so what
is known about the faults of the parts is known about those of the whole.

The canonical form of a path on a POSIX host. It is put together from the path without links, or
fails where that is a network root and nothing more. Where the links of the path can be resolved to
the end, the canonical form names a place on the way to which the host knows no link.

Dots in a canonical form. What is left of the segments of a path is the place that a walk along them
reaches from the root, and no such place is named with dots. So of the two rules for an anchored path
only the one that it has to be rooted can be broken, on hosts of either kind.
-/

namespace SourceLoader

variable {α β : Type} {P : Fault → Prop} {x y : Except Fault α} {f : α → Except Fault β}
  {fault : Fault}

theorem bind_eq_ok {b : β} : x >>= f = .ok b ↔ ∃ a, x = .ok a ∧ f a = .ok b := by
  cases x <;> simp [bind, Except.bind]

theorem bind_eq_error :
    x >>= f = .error fault ↔ x = .error fault ∨ ∃ a, x = .ok a ∧ f a = .error fault := by
  cases x <;> simp [bind, Except.bind]

/-- Whether a step fails with no other faults than those with a property. -/
def FailsOnly (P : Fault → Prop) (x : Except Fault α) : Prop := ∀ fault, x = .error fault → P fault

theorem failsOnly_ok (a : α) : FailsOnly P (.ok a : Except Fault α) := by
  rintro fault ⟨⟩

theorem failsOnly_error (h : P fault) : FailsOnly P (.error fault : Except Fault α) := by
  rintro fault ⟨⟩
  exact h

theorem FailsOnly.mono {Q : Fault → Prop} (hx : FailsOnly P x) (h : ∀ fault, P fault → Q fault) :
    FailsOnly Q x :=
  fun fault hfault => h fault (hx fault hfault)

theorem FailsOnly.bind (hx : FailsOnly P x) (hf : ∀ a, FailsOnly P (f a)) :
    FailsOnly P (x >>= f) := by
  intro fault h
  rcases bind_eq_error.1 h with h | ⟨a, -, h⟩
  · exact hx fault h
  · exact hf a fault h

theorem FailsOnly.map (hx : FailsOnly P x) (g : α → β) : FailsOnly P (g <$> x) := by
  cases x with
  | ok a => exact failsOnly_ok (g a)
  | error fault => exact failsOnly_error (hx fault rfl)

theorem FailsOnly.ite {c : Prop} [Decidable c] (hx : FailsOnly P x) (hy : FailsOnly P y) :
    FailsOnly P (if c then x else y) := by
  split
  · exact hx
  · exact hy

end SourceLoader

/-! ## The canonical form -/

namespace SourceLoader.Host

open SourceLoader.Path

/-- The path that a canonical form is put together from: anchored, and without the links that can be
resolved. -/
def resolved (host : Host) (path : Text) : Except Fault Text := do
  let workDir ← host.canonicalWorkDir
  host.resolveLinks (anchor host.platform workDir path)

/-- Whether the links of a path can be resolved to the end. They cannot under a network root, nor
where a loop of links stops the rebuilding. -/
def Resolves (host : Host) (path : Text) : Prop :=
  ∃ workDir r, host.canonicalWorkDir = .ok workDir ∧
    isUnc .posix (anchor .posix workDir path) = false ∧
    host.rebuilt (anchor .posix workDir path) = .ok r ∧ r.complete = true

/-- Whether resolving the links of a path leaves a network root and nothing below it. -/
def LeavesBareRoot (host : Host) (path root : Text) : Prop :=
  host.resolved path = .ok root ∧ IsRootName root ∧ root ≠ []

/-- Whether the working directory, if the host can tell it, is an absolute path. -/
def Rooted (host : Host) : Prop :=
  ∀ workDir, host.workDir = some workDir → isAbsolute workDir = true

variable {host : Host} {path : Text}

theorem canonicalize_resolved (h : host.platform = .posix) (path : Text) :
    host.canonicalize path true =
      match host.resolved path with
      | .error fault => .error fault
      | .ok anchored =>
        if (split .posix anchored).rooted then
          .ok (render (rootName .posix anchored) (walkFromRoot (split .posix anchored).segments)
            (split .posix path).isDirectory)
        else .error (.violation (.anchoredPathNotRooted anchored)) := by
  unfold canonicalize resolved
  cases host.canonicalWorkDir with
  | error fault => rfl
  | ok workDir =>
      simp only [h, bind, Except.bind, if_true]
      cases host.resolveLinks (anchor .posix workDir path) with
      | error fault => rfl
      | ok anchored => exact canonicalOfAnchored_posix workDir anchored _

theorem canonicalize_of_resolved (h : host.platform = .posix) {location : Location}
    (hnamed : location.Named) (hres : host.resolved path = .ok (Location.path location)) :
    host.canonicalize path true = .ok (render [] location (split .posix path).isDirectory) := by
  have hsplit := split_path hnamed
  have hname : rootName .posix (Location.path location) = [] := congrArg Parts.rootName hsplit
  rw [canonicalize_resolved h, hres]
  simp [hsplit, hname, walkFromRoot_of_named hnamed]

theorem exists_render_of_canonicalize (h : host.platform = .posix) {canonical : Text}
    (hc : host.canonicalize path true = .ok canonical) :
    ∃ name segments, IsRootName name ∧ Location.Named segments ∧
      canonical = render name segments (split .posix path).isDirectory := by
  rw [canonicalize_resolved h] at hc
  split at hc
  · cases hc
  · next anchored _ =>
    split at hc
    · exact ⟨_, _, isRootName_rootName anchored, named_walkFromRoot anchored,
        (Except.ok.inj hc).symm⟩
    · cases hc

theorem isCanonical_of_canonicalize (h : host.platform = .posix) {canonical : Text}
    (hc : host.canonicalize path true = .ok canonical) : IsCanonical canonical := by
  obtain ⟨name, segments, hname, hnamed, hform⟩ := exists_render_of_canonicalize h hc
  exact ⟨name, segments, _, hname, hnamed, hform⟩

theorem realPath_eq_ok {p : Text} (h : host.platform = .posix)
    (hp : host.realPath path = .ok p) :
    ∃ r, host.rebuilt path = .ok r ∧
      (isAbsolute r.path = true ∧ p = normalize r.path ∨
        isAbsolute r.path = false ∧
          ∃ workDir, host.workDir = some workDir ∧ p = absolute workDir r.path) := by
  rw [realPath_posix h] at hp
  split at hp
  · cases hp
  · next r hr =>
    refine ⟨r, hr, ?_⟩
    split at hp
    · next habs => exact .inl ⟨habs, (Except.ok.inj hp).symm⟩
    · next habs =>
      cases hwork : host.workDir with
      | none => simp [askWorkDir, hwork] at hp
      | some workDir =>
          simp only [askWorkDir, hwork, Functor.map, Except.map] at hp
          exact .inr ⟨by simpa using habs, workDir, rfl, (Except.ok.inj hp).symm⟩

theorem isAbsolute_realPath {p : Text} (h : host.platform = .posix)
    (habs : isAbsolute path = true) (hp : host.realPath path = .ok p) : isAbsolute p = true := by
  obtain ⟨r, hr, ⟨-, rfl⟩ | ⟨hrel, -⟩⟩ := realPath_eq_ok h hp
  · rw [isAbsolute_normalize, isAbsolute_rebuilt habs hr]
  · rw [isAbsolute_rebuilt habs hr] at hrel
    cases hrel

theorem fault_of_realPath {fault : Fault} (h : host.platform = .posix)
    (hp : host.realPath path = .error fault) : fault = .embeddedNul ∨ ∃ e, fault = .os e := by
  rw [realPath_posix h] at hp
  split at hp
  · next hr => exact .inl (Except.error.inj hp ▸ fault_of_rebuild hr)
  · split at hp
    · cases hp
    · cases hwork : host.workDir with
      | none =>
          simp only [askWorkDir, hwork, Functor.map, Except.map] at hp
          exact .inr ⟨_, (Except.error.inj hp).symm⟩
      | some workDir => simp [askWorkDir, hwork] at hp

theorem fault_of_realPath_of_isAbsolute {fault : Fault} (h : host.platform = .posix)
    (habs : isAbsolute path = true) (hp : host.realPath path = .error fault) :
    fault = .embeddedNul := by
  rw [realPath_posix h] at hp
  cases hr : host.rebuilt path with
  | error fault' =>
      rw [hr] at hp
      exact Except.error.inj hp ▸ fault_of_rebuild hr
  | ok r => simp [hr, isAbsolute_rebuilt habs hr] at hp

theorem canonicalWorkDir_posix (h : host.platform = .posix) :
    host.canonicalWorkDir =
      match host.workDir with
      | none => .error (.os ⟨.notFound, none⟩)
      | some workDir => host.realPath workDir := by
  unfold canonicalWorkDir askWorkDir
  rw [h]
  cases host.workDir with
  | none => rfl
  | some workDir =>
      simp only [bind, Except.bind]
      cases host.realPath workDir <;> rfl

theorem isAbsolute_canonicalWorkDir {workDir : Text} (h : host.platform = .posix)
    (hroot : host.Rooted) (hwork : host.canonicalWorkDir = .ok workDir) :
    isAbsolute workDir = true := by
  rw [canonicalWorkDir_posix h] at hwork
  split at hwork
  · cases hwork
  · next cwd hcwd => exact isAbsolute_realPath h (hroot cwd hcwd) hwork

theorem canonicalWorkDir_ne_nil {workDir : Text} (h : host.platform = .posix)
    (hwork : host.canonicalWorkDir = .ok workDir) : workDir ≠ [] := by
  have hnormal : ∀ path, Path.normalize path ≠ [] := by
    intro path
    unfold Path.normalize
    simp only
    split
    · decide
    · assumption
  rw [canonicalWorkDir_posix h] at hwork
  split at hwork
  · cases hwork
  · obtain ⟨r, -, ⟨-, rfl⟩ | ⟨-, cwd, -, rfl⟩⟩ := realPath_eq_ok h hwork
    · exact hnormal _
    · exact hnormal _

theorem resolveLinks_posix (h : host.platform = .posix) (anchored : Text) :
    host.resolveLinks anchored =
      if isUnc .posix anchored then .ok anchored else host.realPath anchored := by
  unfold resolveLinks
  rw [h]
  cases isUnc .posix anchored with
  | true => rfl
  | false => cases host.realPath anchored <;> rfl

theorem resolved_of_workDir (h : host.platform = .posix) {workDir : Text}
    (hwork : host.canonicalWorkDir = .ok workDir) (path : Text) :
    host.resolved path =
      if isUnc .posix (anchor .posix workDir path) then .ok (anchor .posix workDir path)
      else host.realPath (anchor .posix workDir path) := by
  simp only [resolved, hwork, bind, Except.bind, h, resolveLinks_posix h]

theorem isAbsolute_resolved {anchored : Text} (h : host.platform = .posix) (hroot : host.Rooted)
    (hres : host.resolved path = .ok anchored) : isAbsolute anchored = true := by
  cases hwork : host.canonicalWorkDir with
  | error fault => simp [resolved, hwork, bind, Except.bind] at hres
  | ok workDir =>
      have habs := isAbsolute_anchor (isAbsolute_canonicalWorkDir h hroot hwork) path
      rw [resolved_of_workDir h hwork] at hres
      split at hres
      · exact Except.ok.inj hres ▸ habs
      · exact isAbsolute_realPath h habs hres

theorem fault_of_resolved {fault : Fault} (h : host.platform = .posix)
    (hres : host.resolved path = .error fault) : fault = .embeddedNul ∨ ∃ e, fault = .os e := by
  cases hwork : host.canonicalWorkDir with
  | error fault' =>
      obtain rfl : fault' = fault := by simpa [resolved, hwork, bind, Except.bind] using hres
      rw [canonicalWorkDir_posix h] at hwork
      split at hwork
      · exact .inr ⟨_, (Except.error.inj hwork).symm⟩
      · exact fault_of_realPath h hwork
  | ok workDir =>
      rw [resolved_of_workDir h hwork] at hres
      split at hres
      · cases hres
      · exact fault_of_realPath h hres

/-- Where resolving the links leaves an absolute path at most, canonicalizing breaks a rule exactly
where that is a network root and nothing more. -/
theorem canonicalize_eq_violation_iff_of_isAbsolute (h : host.platform = .posix)
    (habs : ∀ anchored, host.resolved path = .ok anchored → isAbsolute anchored = true)
    {rule : Violation} :
    host.canonicalize path true = .error (.violation rule) ↔
      ∃ root, host.LeavesBareRoot path root ∧ rule = .anchoredPathNotRooted root := by
  rw [canonicalize_resolved h]
  unfold LeavesBareRoot
  cases hres : host.resolved path with
  | error fault =>
      rcases fault_of_resolved h hres with rfl | ⟨e, rfl⟩ <;> simp
  | ok anchored =>
      have habs := habs anchored hres
      have hne : anchored ≠ [] := by
        rintro rfl
        cases habs
      have hbare : ¬ (split .posix anchored).rooted = true ↔ IsRootName anchored := by
        rw [rooted_iff habs, not_not]
      simp only [Except.ok.injEq]
      constructor
      · intro hrule
        split at hrule
        · cases hrule
        · next hname => exact ⟨anchored, ⟨rfl, hbare.1 hname, hne⟩, by simpa using hrule.symm⟩
      · rintro ⟨root, ⟨rfl, hname, -⟩, rfl⟩
        rw [if_neg (hbare.2 hname)]

theorem canonicalize_eq_violation_iff (h : host.platform = .posix) (hroot : host.Rooted)
    {rule : Violation} :
    host.canonicalize path true = .error (.violation rule) ↔
      ∃ root, host.LeavesBareRoot path root ∧ rule = .anchoredPathNotRooted root :=
  canonicalize_eq_violation_iff_of_isAbsolute h fun _ hres => isAbsolute_resolved h hroot hres

theorem linkless_resolved {p : Text} (h : host.platform = .posix) (hres : host.Resolves path)
    (hp : host.resolved path = .ok p) (habs : isAbsolute p = true) : host.Linkless p := by
  obtain ⟨workDir, r, hwork, hunc, hr, hcomplete⟩ := hres
  have hresolved : host.resolved path = host.realPath (anchor .posix workDir path) := by
    simp [resolved_of_workDir h hwork, hunc]
  obtain ⟨r', hr', hpath⟩ := realPath_eq_ok h (hresolved ▸ hp)
  obtain rfl : r = r' := Except.ok.inj (hr.symm.trans hr')
  rcases hpath with ⟨habs', rfl⟩ | ⟨hrel, cwd, hcwd, rfl⟩
  · obtain ⟨location, hnamed, hunlinked, hl⟩ := linkless_rebuilt hr hcomplete habs'
    rw [hl, Location.normalize_path hnamed]
    exact ⟨location, hnamed, hunlinked, rfl⟩
  · -- A relative path can only be led to the root by an absolute working directory, and in that one
    -- no path is anchored that is relative.
    have hcwdAbs : isAbsolute cwd = true := by
      rwa [absolute, isAbsolute_normalize, isAbsolute_append hrel] at habs
    have hworkAbs : isAbsolute workDir = true :=
      isAbsolute_canonicalWorkDir h (fun w hw => by simp_all) hwork
    rw [isAbsolute_rebuilt (isAbsolute_anchor hworkAbs path) hr] at hrel
    cases hrel

/-- Where the links of a path can be resolved to the end, its canonical form names a place on the
way to which the host knows no link. -/
theorem exists_location_of_canonicalize (h : host.platform = .posix) (hres : host.Resolves path)
    {canonical : Text} (hc : host.canonicalize path true = .ok canonical) :
    ∃ (location : Location) (isDirectory : Bool), location.Named ∧ host.Unlinked location ∧
      canonical = render [] location isDirectory := by
  cases hp : host.resolved path with
  | error fault =>
      rw [canonicalize_resolved h, hp] at hc
      cases hc
  | ok p =>
      have hrooted : (split .posix p).rooted = true := by
        rw [canonicalize_resolved h, hp] at hc
        by_contra hne
        simp [hne] at hc
      obtain ⟨location, hnamed, hunlinked, rfl⟩ :=
        linkless_resolved h hres hp (isAbsolute_of_rooted hrooted)
      rw [canonicalize_of_resolved h hnamed hp] at hc
      exact ⟨location, _, hnamed, hunlinked, (Except.ok.inj hc).symm⟩

end SourceLoader.Host

/-! ## Dots -/

namespace SourceLoader

open SourceLoader.Path

def Fault.OfPath : Fault → Prop
  | .os _ | .embeddedNul | .violation (.anchoredPathNotRooted _) => True
  | _ => False

namespace Host

variable {host : Host} {path : Text}

theorem failsOnly_askWorkDir : FailsOnly Fault.OfPath host.askWorkDir := by
  unfold askWorkDir
  split
  · exact failsOnly_ok _
  · exact failsOnly_error trivial

theorem failsOnly_realPath : FailsOnly Fault.OfPath (host.realPath path) := by
  cases hplatform : host.platform with
  | posix =>
      intro fault h
      rcases fault_of_realPath hplatform h with rfl | ⟨e, rfl⟩ <;> trivial
  | windows =>
      rw [realPath, hplatform]
      exact .ite (failsOnly_ok _) (failsOnly_askWorkDir.map _)

theorem failsOnly_canonicalWorkDir : FailsOnly Fault.OfPath host.canonicalWorkDir :=
  failsOnly_askWorkDir.bind fun _ => failsOnly_realPath.map _

theorem failsOnly_resolveLinks (anchored : Text) :
    FailsOnly Fault.OfPath (host.resolveLinks anchored) :=
  .ite (failsOnly_ok anchored) (failsOnly_realPath.map _)

theorem failsOnly_canonicalOfAnchored (platform : Platform) (workDir anchored : Text)
    (isDirectory : Bool) :
    FailsOnly Fault.OfPath (canonicalOfAnchored platform workDir anchored isDirectory) := by
  rw [canonicalOfAnchored_eq]
  exact .ite (failsOnly_ok _) (failsOnly_error trivial)

theorem failsOnly_canonicalize (host : Host) (path : Text) (resolve : Bool) :
    FailsOnly Fault.OfPath (host.canonicalize path resolve) :=
  failsOnly_canonicalWorkDir.bind fun _ =>
    .ite ((failsOnly_resolveLinks _).bind fun _ => failsOnly_canonicalOfAnchored _ _ _ _)
      ((failsOnly_ok _).bind fun _ => failsOnly_canonicalOfAnchored _ _ _ _)

end Host

namespace Path

/-- Collapsing the dots of segments and dropping the run of `..` in front walks along the segments
from the root, so that no dots are left, and the rule that none may be left is never broken. The dots
of a list can be collapsed part by part, with the run in front or without it. -/
theorem collapse_eq_walk (segments more : List Text) :
    dropLeadingDotDots (collapseDots segments) = walkFromRoot segments ∧
      Undotted (dropLeadingDotDots (collapseDots segments)) ∧
      (∀ (host : Host) (path anchored : Text) (resolve : Bool),
        host.canonicalize path resolve ≠ .error (.violation (.dotDotLeft anchored))) ∧
      collapseDots (segments ++ more) = collapseDots (collapseDots segments ++ more) ∧
      dropLeadingDotDots (collapseDots (segments ++ more)) =
        dropLeadingDotDots
          (collapseDots (dropLeadingDotDots (collapseDots segments) ++ more)) := by
  refine ⟨dropLeadingDotDots_collapseDots segments, ?_, ?_,
    (collapseDots_collapseDots_append segments more).symm, ?_⟩
  · rw [dropLeadingDotDots_collapseDots]
    exact undotted_walkFromRoot segments
  · intro host path anchored resolve h
    exact host.failsOnly_canonicalize path resolve _ h
  · simp only [dropLeadingDotDots_collapseDots]
    exact (walkFromRoot_walkFromRoot_append segments more).symm

end Path

end SourceLoader
