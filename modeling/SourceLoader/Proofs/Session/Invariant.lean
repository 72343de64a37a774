import Mathlib
import SourceLoader.Proofs.Host.Retraction
import SourceLoader.Proofs.Session.Search
import SourceLoader.Proofs.Session.Writes

/-!
What holds of a session at any time. Its directories are stored in canonical form, and none is
searched behind a base path that is not set. An operation that fails leaves the session as it was.
Neither depends on the hosts that the session has met on the way.
-/

namespace SourceLoader

open SourceLoader.Path

/-- Whether all directories are stored in canonical form, and the base path is set where others are
searched behind it. -/
structure Sandbox.WellFormed (s : Sandbox) : Prop where
  base_ne_nil : s.includePaths ≠ [] → s.basePath ≠ []
  base : s.basePath ≠ [] → IsCanonical s.basePath
  includes : ∀ directory ∈ s.includePaths, IsCanonical directory
  allowed : ∀ directory ∈ s.allowed, IsCanonical directory

theorem Path.IsCanonical.ne_nil {path : Text} (h : IsCanonical path) : path ≠ [] := by
  obtain ⟨name, segments, isDirectory, -, -, rfl⟩ := h
  simp [render]

namespace Sandbox

variable {host : Host} {s s' : Sandbox} {notices : List Notice}

theorem wellFormed_empty : empty.WellFormed where
  base_ne_nil h := absurd rfl h
  base h := absurd rfl h
  includes _ h := nomatch h
  allowed _ h := nomatch h

theorem WellFormed.isCanonical_of_mem_searchPrefixes (h : s.WellFormed) (hbase : s.basePath ≠ [])
    {directory : Text} (hmem : directory ∈ s.searchPrefixes) : IsCanonical directory := by
  rcases List.mem_cons.1 hmem with rfl | hmem
  · exact h.base hbase
  · exact h.includes directory hmem

theorem WellFormed.isCanonical_of_mem_boundary (h : s.WellFormed) (hbase : s.basePath ≠ [])
    {directory : Text} (hmem : directory ∈ s.boundary) : IsCanonical directory := by
  rw [boundary, if_neg hbase] at hmem
  rcases List.mem_append.1 hmem with hmem | hmem
  · exact h.allowed directory hmem
  · exact h.isCanonical_of_mem_searchPrefixes hbase hmem

theorem mem_insertDirectory {directory d : Text} {directories : List Text} :
    d ∈ insertDirectory directory directories ↔ d = directory ∨ d ∈ directories := by
  induction directories with
  | nil => simp [insertDirectory]
  | cons e rest ih =>
      unfold insertDirectory
      split
      · simp [ih, or_left_comm]
      · simp

theorem setBasePath_eq_ok {path : Text} (h : s.setBasePath host path = .ok (s', notices)) :
    ∃ basePath, s' = { s with basePath := basePath } ∧
      (path = [] ∧ s.includePaths = [] ∧ basePath = [] ∨
        host.canonicalize path false = .ok basePath) := by
  unfold setBasePath at h
  by_cases hpath : path = []
  · rw [if_pos hpath] at h
    by_cases hincludes : s.includePaths = []
    · rw [if_neg (not_not.2 hincludes)] at h
      exact ⟨[], (Prod.mk.inj (Except.ok.inj h)).1.symm, .inl ⟨hpath, hincludes, rfl⟩⟩
    · rw [if_pos hincludes] at h
      cases h
  · rw [if_neg hpath] at h
    obtain ⟨basePath, hbase, hs⟩ := bind_eq_ok.1 h
    exact ⟨basePath, (Prod.mk.inj (Except.ok.inj hs)).1.symm, .inr hbase⟩

theorem addIncludePath_eq_ok {path : Text} (h : s.addIncludePath host path = .ok (s', notices)) :
    s.basePath ≠ [] ∧ ∃ directory, host.canonicalize path false = .ok directory ∧
      s' = { s with includePaths := s.includePaths ++ [directory] } := by
  unfold addIncludePath at h
  by_cases hbase : s.basePath = []
  · simp only [hbase, if_true] at h
    cases h
  · by_cases hpath : path = []
    · simp only [hbase, hpath, if_true, if_false] at h
      cases h
    · simp only [hbase, hpath, if_false] at h
      obtain ⟨directory, hdirectory, hs⟩ := bind_eq_ok.1 h
      exact ⟨hbase, directory, hdirectory, (Prod.mk.inj (Except.ok.inj hs)).1.symm⟩

theorem allowDirectory_eq_ok {path : Text} (h : s.allowDirectory host path = .ok (s', notices)) :
    ∃ directory, host.canonicalize path false = .ok directory ∧
      (directory ∈ s.allowed ∧ s' = s ∨
        directory ∉ s.allowed ∧ s' = { s with allowed := insertDirectory directory s.allowed }) := by
  unfold allowDirectory at h
  by_cases hpath : path = []
  · simp only [hpath, if_true] at h
    cases h
  · simp only [hpath, if_false] at h
    obtain ⟨directory, hdirectory, hs⟩ := bind_eq_ok.1 h
    refine ⟨directory, hdirectory, ?_⟩
    split at hs
    · next hmem => exact .inl ⟨hmem, (Prod.mk.inj (Except.ok.inj hs)).1.symm⟩
    · next hmem => exact .inr ⟨hmem, (Prod.mk.inj (Except.ok.inj hs)).1.symm⟩

theorem WellFormed.apply (hposix : host.platform = .posix) (hs : s.WellFormed) {change : Change}
    (h : s.apply host change = .ok (s', notices)) : s'.WellFormed := by
  cases change with
  | setBasePath path =>
      obtain ⟨basePath, rfl, ⟨-, hincludes, rfl⟩ | hbase⟩ := setBasePath_eq_ok h
      · exact { hs with
          base_ne_nil := fun hne => absurd hincludes hne
          base := fun hne => absurd rfl hne }
      · have hcanonical := Host.isCanonical_of_lexical hposix hbase
        exact { hs with
          base_ne_nil := fun _ => hcanonical.ne_nil
          base := fun _ => hcanonical }
  | addIncludePath path =>
      obtain ⟨hbase, directory, hdirectory, rfl⟩ := addIncludePath_eq_ok h
      refine { hs with base_ne_nil := fun _ => hbase, includes := fun d hd => ?_ }
      rcases List.mem_append.1 hd with hd | hd
      · exact hs.includes d hd
      · obtain rfl := List.mem_singleton.1 hd
        exact Host.isCanonical_of_lexical hposix hdirectory
  | allowDirectory path =>
      obtain ⟨directory, hdirectory, ⟨-, rfl⟩ | ⟨-, rfl⟩⟩ := allowDirectory_eq_ok h
      · exact hs
      · refine { hs with allowed := fun d hd => ?_ }
        rcases mem_insertDirectory.1 hd with rfl | hd
        · exact Host.isCanonical_of_lexical hposix hdirectory
        · exact hs.allowed d hd

theorem WellFormed.applyAll (hposix : host.platform = .posix) (hs : s.WellFormed)
    {changes : List Change} (h : (s.applyAll host changes).1 = .ok s') : s'.WellFormed := by
  induction changes generalizing s with
  | nil => exact Except.ok.inj h ▸ hs
  | cons change rest ih =>
      unfold Sandbox.applyAll at h
      split at h
      · cases h
      · next happly => exact ih (hs.apply hposix happly) h

end Sandbox

namespace Session

variable {host : Host} {s : Session}

/-- How a read can end: it fails and nothing has changed, or it gives an answer and at most the
registry has changed. -/
theorem read_cases (host : Host) (s : Session) (kind name : Text) :
    (∃ fault notices, s.read host kind name = (.error fault, s, notices)) ∨
      ∃ answer registry notices,
        s.read host kind name = (.ok answer, { s with registry := registry }, notices) := by
  unfold read load
  split
  · cases find host s.sandbox name with
    | ok finding => cases finding <;> exact .inr ⟨_, _, _, rfl⟩
    | error fault =>
        cases fault with
        | violation rule => exact .inl ⟨_, _, rfl⟩
        | _ => exact .inr ⟨_, _, _, rfl⟩
  · exact .inl ⟨_, _, rfl⟩

/-- How an operation can end: it fails and nothing has changed, or a change of the sandbox has been
made, or at most the registry has changed. -/
theorem perform_cases (host : Host) (s : Session) (operation : Operation) :
    (∃ fault, s.perform host operation = (.error fault, s)) ∨
      (∃ change sandbox notices, s.sandbox.apply host change = .ok (sandbox, notices) ∧
        s.perform host operation = (.ok .done, { s with sandbox := sandbox })) ∨
      ∃ reply registry,
        s.perform host operation = (.ok reply, { s with registry := registry }) := by
  cases operation with
  | change change =>
      cases happly : s.sandbox.apply host change with
      | error fault => exact .inl ⟨fault, by simp only [perform, happly]⟩
      | ok made =>
          exact .inr (.inl ⟨change, made.1, made.2, happly, by simp only [perform, happly]⟩)
  | isAllowed candidate =>
      cases hverdict : s.sandbox.isAllowed host candidate with
      | error fault => exact .inl ⟨fault, by simp only [perform, hverdict]; rfl⟩
      | ok verdict => exact .inr (.inr ⟨_, _, by simp only [perform, hverdict]; rfl⟩)
  | unitName path =>
      cases hname : s.sandbox.unitName host path with
      | error fault => exact .inl ⟨fault, by simp only [perform, hname]; rfl⟩
      | ok name => exact .inr (.inr ⟨_, _, by simp only [perform, hname]; rfl⟩)
  | setSource path text =>
      cases hname : s.sandbox.unitName host path with
      | error fault => exact .inl ⟨fault, by simp only [perform, setSource, hname]; rfl⟩
      | ok name => exact .inr (.inr ⟨_, _, by simp only [perform, setSource, hname]; rfl⟩)
  | setStdin text => exact .inr (.inr ⟨_, _, rfl⟩)
  | setSources sources => exact .inr (.inr ⟨_, _, rfl⟩)
  | read kind name =>
      rcases read_cases host s kind name with ⟨fault, notices, h⟩ | ⟨answer, registry, notices, h⟩
      · exact .inl ⟨fault, by simp only [perform, h]; rfl⟩
      · exact .inr (.inr ⟨_, _, by simp only [perform, h]; rfl⟩)

theorem wellFormed_perform (hposix : host.platform = .posix) (h : s.sandbox.WellFormed)
    (operation : Operation) : (s.perform host operation).2.sandbox.WellFormed := by
  rcases perform_cases host s operation with
    ⟨fault, hs⟩ | ⟨change, sandbox, notices, happly, hs⟩ | ⟨reply, registry, hs⟩
  · rwa [hs]
  · rw [hs]
    exact h.apply hposix happly
  · rwa [hs]

theorem Reachable.wellFormed (h : Reachable s) : s.sandbox.WellFormed := by
  -- No step needs to know which hosts the steps before it have met.
  induction h with
  | start posix built sources => exact Sandbox.wellFormed_empty.applyAll posix built
  | step before posix operation ih => exact wellFormed_perform posix ih operation

theorem eq_of_perform_error {operation : Operation} {fault : Fault} {after : Session}
    (h : s.perform host operation = (.error fault, after)) : after = s := by
  rcases perform_cases host s operation with
    ⟨fault', hs⟩ | ⟨change, sandbox, notices, -, hs⟩ | ⟨reply, registry, hs⟩
  · exact (Prod.mk.inj (h.symm.trans hs)).2
  · cases h.symm.trans hs
  · cases h.symm.trans hs

/-- In every session that can come about, directories are stored in canonical form and none is
searched behind a base path that is not set. There, as in every other session, an operation done
write by write comes to the same as the operation done at once, and leaves no trace where it
fails. -/
theorem reachable_wellFormed_atomic (h : Reachable s) :
    s.sandbox.WellFormed ∧ ∀ (host : Host) (operation : Operation),
      (Work.ofOperation host operation).runOn s = s.perform host operation ∧
        ∀ fault after, s.perform host operation = (.error fault, after) → after = s := by
  refine ⟨h.wellFormed, fun host operation => ⟨Work.runOn_ofOperation host s operation, ?_⟩⟩
  intro fault after hafter
  exact eq_of_perform_error hafter

def moored : Host where
  platform := .posix
  tree := ⟨[(["w".toList], .directory false)]⟩
  workDir := some "/w".toList

def unmoored : Host := { moored with workDir := none }

def underway : Session := ⟨⟨"/a".toList, ["/w/b/".toList], []⟩, .ofList []⟩

def departed : Session := (underway.perform unmoored (.setStdin "X".toList)).2

/-- A directory that is added when the working directory is gone cannot be canonicalized, and what
was there stays. -/
theorem reachable_wellFormed_atomic_departed :
    Reachable departed ∧ departed.sandbox.WellFormed ∧
      (Work.ofOperation unmoored (.change (.addIncludePath "c".toList))).runOn departed =
        (.error (.os ⟨.notFound, none⟩), departed) := by
  have hbuilt : (Sandbox.build moored "/./a".toList ["b/.".toList] []).1 =
      .ok underway.sandbox := by
    cbv
  have hreach : Reachable departed := .step (.start rfl hbuilt []) rfl _
  obtain ⟨hwell, hatomic⟩ := reachable_wellFormed_atomic hreach
  obtain ⟨hrun, hkeeps⟩ := hatomic unmoored (.change (.addIncludePath "c".toList))
  have hfails : (departed.perform unmoored (.change (.addIncludePath "c".toList))).1 =
      .error (.os ⟨.notFound, none⟩) := by
    cbv
  have hafter := hkeeps _ _ (Prod.ext hfails rfl)
  exact ⟨hreach, hwell, hrun.trans (Prod.ext hfails hafter)⟩

end Session

end SourceLoader
