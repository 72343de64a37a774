import Mathlib
import SourceLoader.Proofs.Host.Moved
import SourceLoader.Proofs.Session.Invariant
import SourceLoader.Proofs.Session.SearchPath

/-!
What a session owes to the working directory once a base path is set: nothing. All directories are
stored with a root, and joining a name to one of them keeps it. So a read or a question goes the
same way wherever the working directory is, and in a run it may move between any two steps.
-/

namespace SourceLoader

open SourceLoader.Path

def Operation.asks : Operation → Bool
  | .isAllowed _ | .read _ _ => true
  | _ => false

/-- Whether an operation that changes the sandbox names a path with a root, which is the same
wherever it is seen from. -/
def Operation.Fixed : Operation → Prop
  | .change (.setBasePath path) | .change (.addIncludePath path)
  | .change (.allowDirectory path) => (split .posix path).rooted = true
  | _ => True

variable {host other : Host}

namespace Sandbox

variable {s s' : Sandbox}

theorem isAllowed_moved (h : host.Moved other) (hs : s.WellFormed) (hbase : s.basePath ≠ [])
    (candidate : Text) : s.isAllowed other candidate = s.isAllowed host candidate :=
  liesBelowAny_congr h.platform fun _ hmem =>
    h.canonicalize (hs.isCanonical_of_mem_boundary hbase hmem).rooted true

theorem apply_moved (h : host.Moved other) {change : Change}
    (hfixed : (Operation.change change).Fixed) : s.apply other change = s.apply host change := by
  cases change with
  | setBasePath path => simp only [apply, setBasePath, h.canonicalize hfixed]
  | addIncludePath path => simp only [apply, addIncludePath, h.canonicalize hfixed]
  | allowDirectory path => simp only [apply, allowDirectory, h.canonicalize hfixed]

theorem basePath_ne_nil_of_apply (hposix : host.platform = .posix) (hbase : s.basePath ≠ [])
    {change : Change} {notices : List Notice} (hfixed : (Operation.change change).Fixed)
    (h : s.apply host change = .ok (s', notices)) : s'.basePath ≠ [] := by
  cases change with
  | setBasePath path =>
      obtain ⟨basePath, rfl, ⟨rfl, -, -⟩ | hcanonical⟩ := setBasePath_eq_ok h
      · cases hfixed
      · exact (Host.isCanonical_of_lexical hposix hcanonical).ne_nil
  | addIncludePath path =>
      obtain ⟨-, directory, -, rfl⟩ := addIncludePath_eq_ok h
      exact hbase
  | allowDirectory path =>
      obtain ⟨directory, -, ⟨-, rfl⟩ | ⟨-, rfl⟩⟩ := allowDirectory_eq_ok h
      · exact hbase
      · exact hbase

end Sandbox

namespace Session

variable {s s' : Session} {roots : List Text}

theorem findCandidate_moved (h : host.Moved other) (hroots : ∀ root ∈ roots, IsCanonical root)
    (name last : Text) :
    findCandidate other name last roots = findCandidate host name last roots := by
  induction roots generalizing last with
  | nil => rfl
  | cons root rest ih =>
      obtain ⟨hroot, hrest⟩ := List.forall_mem_cons.1 hroots
      simp only [findCandidate, h.canonicalize (rooted_joinSearchPath hroot name) true]
      cases hcandidate : host.canonicalize (joinSearchPath root name) true with
      | error fault => rfl
      | ok candidate =>
          have hcanonical := Host.isCanonical_of_canonicalize h.posix hcandidate
          have hexists : other.pathExists (hostPath candidate) =
              host.pathExists (hostPath candidate) := h.ask (isAbsolute_hostPath hcanonical) _
          simp only [bind, Except.bind, hexists, ih hrest]

theorem find_moved {sandbox : Sandbox} (h : host.Moved other) (hs : sandbox.WellFormed)
    (hbase : sandbox.basePath ≠ []) (name : Text) :
    find other sandbox name = find host sandbox name := by
  rw [find_eq, find_eq,
    findCandidate_moved h fun _ hmem => hs.isCanonical_of_mem_searchPrefixes hbase hmem]
  cases hpath : findCandidate host (withoutScheme name) [] sandbox.searchPrefixes with
  | error fault => rfl
  | ok path =>
      obtain ⟨root, before, after, -, -, hcanonical, -⟩ :=
        exists_chosen_of_findCandidate (by simp [Sandbox.searchPrefixes]) hpath
      have habs := isAbsolute_hostPath (Host.isCanonical_of_canonicalize h.posix hcanonical)
      change inspect other sandbox path = inspect host sandbox path
      exact inspect_congr (Sandbox.isAllowed_moved h hs hbase path) (h.ask habs _) (h.ask habs _)
        fun _ => h.readText habs

theorem read_moved (h : host.Moved other) (hs : s.sandbox.WellFormed)
    (hbase : s.sandbox.basePath ≠ []) (kind name : Text) :
    s.read other kind name = s.read host kind name := by
  simp only [read, load, find_moved h hs hbase]

theorem read_fst_congr (hsandbox : s'.sandbox = s.sandbox) (kind name : Text) :
    (s'.read host kind name).1 = (s.read host kind name).1 := by
  unfold read load
  split
  · rw [hsandbox]
    exact conclude_fst s' s name _
  · rfl

theorem sandbox_perform (host : Host) (s : Session) {operation : Operation}
    (h : ∀ change, operation ≠ .change change) :
    (s.perform host operation).2.sandbox = s.sandbox := by
  cases operation with
  | change change => exact absurd rfl (h change)
  | isAllowed | unitName | setStdin | setSources => rfl
  | setSource path text =>
      simp only [perform, setSource]
      cases s.sandbox.unitName host path <;> rfl
  | read kind name =>
      rcases read_cases host s kind name with ⟨fault, notices, h⟩ | ⟨answer, registry, notices, h⟩
      · simp only [perform, h]
      · simp only [perform, h]

/-- One step. Two sessions with the same sandbox give the same reply to what is asked about files,
and have the same sandbox afterwards, with a base path that is still set. The texts that they have
registered may differ, since a path from the command line is named from the working directory. -/
theorem perform_moved (h : host.Moved other) (hs : s.sandbox.WellFormed)
    (hbase : s.sandbox.basePath ≠ []) (hsandbox : s'.sandbox = s.sandbox) {operation : Operation}
    (hfixed : operation.Fixed) :
    (s'.perform other operation).2.sandbox = (s.perform host operation).2.sandbox ∧
      (s.perform host operation).2.sandbox.basePath ≠ [] ∧
      (operation.asks = true →
        (s'.perform other operation).1 = (s.perform host operation).1) := by
  -- Only a change touches the sandbox, so all other operations have the first two parts in common.
  have hkept : (∀ change, operation ≠ .change change) →
      (s'.perform other operation).2.sandbox = (s.perform host operation).2.sandbox ∧
        (s.perform host operation).2.sandbox.basePath ≠ [] := by
    intro hne
    rw [sandbox_perform other s' hne, sandbox_perform host s hne]
    exact ⟨hsandbox, hbase⟩
  cases operation with
  | change change =>
      have hquiet : (Operation.change change).asks ≠ true := by simp [Operation.asks]
      simp only [perform, hsandbox, Sandbox.apply_moved h hfixed]
      cases happly : s.sandbox.apply host change with
      | error fault => exact ⟨hsandbox, hbase, fun hasks => absurd hasks hquiet⟩
      | ok made =>
          have hset := Sandbox.basePath_ne_nil_of_apply h.posix hbase hfixed happly
          exact ⟨rfl, hset, fun hasks => absurd hasks hquiet⟩
  | isAllowed candidate =>
      obtain ⟨hsame, hset⟩ := hkept (by simp)
      refine ⟨hsame, hset, fun _ => ?_⟩
      simp only [perform, hsandbox, Sandbox.isAllowed_moved h hs hbase]
  | read kind name =>
      obtain ⟨hsame, hset⟩ := hkept (by simp)
      refine ⟨hsame, hset, fun _ => ?_⟩
      have hread : (s'.read other kind name).1 = (s.read other kind name).1 :=
        read_fst_congr hsandbox kind name
      rw [read_moved h hs hbase] at hread
      simp only [perform, hread]
  | unitName | setSource | setStdin | setSources =>
      obtain ⟨hsame, hset⟩ := hkept (by simp)
      exact ⟨hsame, hset, by simp [Operation.asks]⟩

/-- The replies that a run gives to what is asked about files, each operation done on a host of its
own. -/
def observe (s : Session) : List (Host × Operation) → List (Except Fault Reply)
  | [] => []
  | (host, operation) :: rest =>
    let (reply, s) := s.perform host operation
    if operation.asks then reply :: observe s rest else observe s rest

/-- Whether two runs do the same operations, on hosts that differ at most in the working directory,
and change the sandbox by paths with a root only. -/
def Alongside (steps others : List (Host × Operation)) : Prop :=
  List.Forall₂ (fun a b => a.1.Moved b.1 ∧ b.2 = a.2 ∧ a.2.Fixed) steps others

theorem observe_moved {steps others : List (Host × Operation)} (hs : s.sandbox.WellFormed)
    (hbase : s.sandbox.basePath ≠ []) (hsandbox : s'.sandbox = s.sandbox)
    (h : Alongside steps others) : s'.observe others = s.observe steps := by
  unfold Alongside at h
  -- The two sandboxes stay the same, with a base path that is set, whatever else the steps do.
  induction h generalizing s s' with
  | nil => rfl
  | @cons a b steps others hstep hrest ih =>
      obtain ⟨host, operation⟩ := a
      obtain ⟨other, operation'⟩ := b
      obtain ⟨hmoved, rfl, hfixed⟩ := hstep
      obtain ⟨hsame, hset, hreply⟩ := perform_moved hmoved hs hbase hsandbox hfixed
      have hlater := ih (wellFormed_perform hmoved.posix hs operation') hset hsame
      simp only [observe, hlater]
      split
      · next hasks => rw [hreply hasks]
      · rfl

/-- Once a base path is set, the working directory makes no difference to what is read and to what
may be read, at one moment and over a run in which it moves between the steps. -/
theorem read_of_moved (h : Reachable s) (hbase : s.sandbox.basePath ≠ []) :
    (∀ host other, Host.Moved host other →
      (∀ kind name, s.read other kind name = s.read host kind name) ∧
        ∀ candidate, s.sandbox.isAllowed other candidate = s.sandbox.isAllowed host candidate) ∧
      ∀ steps others, Alongside steps others → s.observe others = s.observe steps := by
  refine ⟨fun host other hmoved => ⟨?_, ?_⟩, fun steps others hsteps => ?_⟩
  · exact read_moved hmoved h.wellFormed hbase
  · exact Sandbox.isAllowed_moved hmoved h.wellFormed hbase
  · exact observe_moved h.wellFormed hbase rfl hsteps

def ashore : Host where
  platform := .posix
  tree := ⟨[(["a".toList], .directory false), (["a".toList, "f".toList], .file [65] false),
    (["b".toList], .directory false), (["b".toList, "f".toList], .file [66] false),
    (["l".toList], .link "./a".toList)]⟩
  workDir := some "/l/".toList

def aboard : Host := { ashore with workDir := some "/b".toList }

def settled : Session := ⟨⟨"/l".toList, [], []⟩, .ofList []⟩

theorem moved_aboard : ashore.Moved aboard where
  posix := rfl
  platform := rfl
  tree := rfl
  work := ⟨"/a".toList, by cbv, ⟨"a".toList, rfl, by decide⟩⟩
  otherWork := ⟨"/b".toList, by cbv, ⟨"b".toList, rfl, by decide⟩⟩

/-- The file below the base path is read from either directory, and so is the other one once its
directory has been allowed, although the working directory has moved in between. -/
theorem read_of_moved_aboard :
    Reachable settled ∧
      (settled.read aboard sourceKind "f".toList).1 = .ok ⟨true, ['A']⟩ ∧
      settled.sandbox.isAllowed aboard "/b/f".toList = .ok false ∧
      settled.observe [(aboard, .read sourceKind "../b/f".toList),
        (ashore, .change (.allowDirectory "/b/./".toList)),
        (aboard, .read sourceKind "../b/f".toList)] =
          [.ok (.answer ⟨false, outsideMessage⟩), .ok (.answer ⟨true, ['B']⟩)] := by
  have hbuilt : (Sandbox.build ashore "../l".toList [] []).1 = .ok settled.sandbox := by cbv
  have hreach : Reachable settled := .start rfl hbuilt []
  have hbase : settled.sandbox.basePath ≠ [] := by decide
  have hstay : ashore.Moved ashore :=
    ⟨rfl, rfl, rfl, moved_aboard.work, moved_aboard.work⟩
  obtain ⟨hmoment, hrun⟩ := read_of_moved hreach hbase
  obtain ⟨hread, hallowed⟩ := hmoment ashore aboard moved_aboard
  have hsteps : Alongside
      [(ashore, .read sourceKind "../b/f".toList),
        (ashore, .change (.allowDirectory "/b/./".toList)),
        (ashore, .read sourceKind "../b/f".toList)]
      [(aboard, .read sourceKind "../b/f".toList),
        (ashore, .change (.allowDirectory "/b/./".toList)),
        (aboard, .read sourceKind "../b/f".toList)] :=
    .cons ⟨moved_aboard, rfl, trivial⟩ (.cons ⟨hstay, rfl, rfl⟩
      (.cons ⟨moved_aboard, rfl, trivial⟩ .nil))
  refine ⟨hreach, ?_, ?_, ?_⟩
  · rw [hread]
    cbv
  · rw [hallowed]
    cbv
  · rw [hrun _ _ hsteps]
    cbv

end Session

end SourceLoader
