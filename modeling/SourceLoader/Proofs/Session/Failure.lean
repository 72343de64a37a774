import Mathlib
import SourceLoader.Proofs.Path.Order
import SourceLoader.Proofs.Session.Search

/-!
Which reads fail. Whatever the host says during a read is turned into an answer, and canonical paths
can always be compared, so apart from an unsupported kind only one thing is passed on: resolving the
links of a candidate or of a boundary entry has left a network root and nothing below it.
-/

namespace SourceLoader

open SourceLoader.Path

namespace Host

variable {host : Host} {path : Text} {rule : Violation}

theorem request_ne_violation {α : Type} {answer : Except Errno α} :
    request path answer ≠ .error (.violation rule) := by
  intro h
  unfold request at h
  split at h
  · cases h
  · split at h <;> cases h

theorem ask_ne_violation {question : Entry → Bool} :
    host.ask path question ≠ .error (.violation rule) := by
  intro h
  unfold ask at h
  split at h
  · cases h
  · cases h
  · split at h <;> cases h
  · next fault _ _ hstat =>
    obtain rfl := Except.error.inj h
    exact request_ne_violation hstat

theorem readText_ne_violation : host.readText path ≠ .error (.violation rule) := by
  intro h
  unfold readText at h
  split at h
  · next fault hbytes =>
    obtain rfl := Except.error.inj h
    exact request_ne_violation hbytes
  · split at h <;> cases h

end Host

theorem isBelow_ne_error {lead path : Text} {fault : Fault} (hlead : IsCanonical lead)
    (hpath : IsCanonical path) : isBelow .posix lead path ≠ .error fault := by
  obtain ⟨below, hbelow, -⟩ := hlead.comparable.isBelow_eq hpath.comparable
  simp [hbelow]

theorem isBelow_eq_true_or_false {lead path : Text} (hlead : IsCanonical lead)
    (hpath : IsCanonical path) :
    isBelow .posix lead path = .ok true ∨ isBelow .posix lead path = .ok false := by
  cases hbelow : isBelow .posix lead path with
  | error fault => exact absurd hbelow (isBelow_ne_error hlead hpath)
  | ok below => cases below <;> simp

namespace Sandbox

variable {host : Host} {candidate : Text} {directories : List Text} {rule : Violation}

/-- Whether the comparison of a path with directories comes to one whose links cannot be resolved
and of which only a network root is left. -/
def CheckStops (host : Host) (candidate : Text) (directories : List Text) (root : Text) : Prop :=
  Stops (fun d => ∃ top, host.canonicalize d true = .ok top ∧
      isBelow host.platform top candidate = .ok false)
    (fun d => host.LeavesBareRoot d root) directories

/-- Whether the comparison of a path with directories comes to one that cannot be canonicalized,
having passed only directories that do not contain the path. -/
def CheckFails (host : Host) (candidate : Text) (directories : List Text) (fault : Fault) : Prop :=
  Stops (fun d => ∃ top, host.canonicalize d true = .ok top ∧
      isBelow host.platform top candidate = .ok false)
    (fun d => host.canonicalize d true = .error fault) directories

theorem liesBelowAny_eq_error_iff (hposix : host.platform = .posix) {fault : Fault}
    (hcandidate : IsCanonical candidate) :
    liesBelowAny host candidate directories = .error fault ↔
      CheckFails host candidate directories fault := by
  induction directories with
  | nil => simp [liesBelowAny, CheckFails]
  | cons directory rest ih =>
      unfold CheckFails at ih ⊢
      rw [stops_cons, ← ih]
      constructor
      · intro h
        rcases bind_eq_error.1 h with h | ⟨top, htop, h⟩
        · exact .inl h
        · rcases bind_eq_error.1 h with h | ⟨below, hbelow, h⟩
          · rw [hposix] at h
            have htop := Host.isCanonical_of_canonicalize hposix htop
            exact absurd h (isBelow_ne_error htop hcandidate)
          · cases below with
            | true => cases h
            | false => exact .inr ⟨⟨top, htop, hbelow⟩, h⟩
      · rintro (h | ⟨⟨top, htop, hbelow⟩, h⟩)
        · exact bind_eq_error.2 (.inl h)
        · exact bind_eq_error.2 (.inr ⟨top, htop, bind_eq_error.2 (.inr ⟨false, hbelow, h⟩)⟩)

theorem liesBelowAny_of_not_fails (hposix : host.platform = .posix)
    (hcandidate : IsCanonical candidate)
    (hpass : ∀ fault, ¬ CheckFails host candidate directories fault) {directory top : Text}
    (hmem : directory ∈ directories) (htop : host.canonicalize directory true = .ok top)
    (hbelow : isBelow .posix top candidate = .ok true) :
    liesBelowAny host candidate directories = .ok true := by
  cases hlies : liesBelowAny host candidate directories with
  | error fault =>
      exact absurd ((liesBelowAny_eq_error_iff hposix hcandidate).1 hlies) (hpass fault)
  | ok lies =>
      cases lies with
      | true => rfl
      | false =>
          obtain ⟨top', htop', hno⟩ := not_below_of_liesBelowAny hlies directory hmem
          obtain rfl := Except.ok.inj (htop.symm.trans htop')
          rw [hposix] at hno
          cases hbelow.symm.trans hno

theorem liesBelowAny_eq_violation_iff (hposix : host.platform = .posix) (hroot : host.Rooted)
    (hcandidate : IsCanonical candidate) :
    liesBelowAny host candidate directories = .error (.violation rule) ↔
      ∃ root, CheckStops host candidate directories root ∧ rule = .anchoredPathNotRooted root := by
  rw [liesBelowAny_eq_error_iff hposix hcandidate]
  simp only [CheckFails, CheckStops, Stops, Host.canonicalize_eq_violation_iff hposix hroot]
  constructor
  · rintro ⟨before, directory, after, rfl, hbefore, root, hleaves, rfl⟩
    exact ⟨root, ⟨before, directory, after, rfl, hbefore, hleaves⟩, rfl⟩
  · rintro ⟨root, ⟨before, directory, after, rfl, hbefore, hleaves⟩, rfl⟩
    exact ⟨before, directory, after, rfl, hbefore, root, hleaves, rfl⟩

end Sandbox

namespace Session

variable {host : Host} {s : Session} {kind name path : Text} {roots : List Text} {rule : Violation}

/-- Whether a search along roots comes to one below which the links of the candidate cannot be
resolved and of which only a network root is left. -/
def SearchStops (host : Host) (name : Text) (roots : List Text) (root : Text) : Prop :=
  Stops (Missing host name) (fun r => host.LeavesBareRoot (joinSearchPath r name) root) roots

theorem findCandidate_eq_violation_iff (hposix : host.platform = .posix) (hroot : host.Rooted)
    {last : Text} :
    findCandidate host name last roots = .error (.violation rule) ↔
      ∃ root, SearchStops host name roots root ∧ rule = .anchoredPathNotRooted root := by
  induction roots generalizing last with
  | nil => simp [findCandidate, SearchStops]
  | cons first rest ih =>
      constructor
      · intro h
        rcases bind_eq_error.1 h with h | ⟨candidate, hcandidate, h⟩
        · obtain ⟨root, hleaves, rfl⟩ := (Host.canonicalize_eq_violation_iff hposix hroot).1 h
          exact ⟨root, stops_cons.2 (.inl hleaves), rfl⟩
        · rcases bind_eq_error.1 h with h | ⟨found, hfound, h⟩
          · -- The host fails with errors of its own, never with a violation.
            exact absurd h Host.ask_ne_violation
          · cases found with
            | true => cases h
            | false =>
                obtain ⟨root, hstops, rfl⟩ := ih.1 h
                exact ⟨root, stops_cons.2 (.inr ⟨⟨candidate, hcandidate, hfound⟩, hstops⟩), rfl⟩
      · rintro ⟨root, hstops, rfl⟩
        refine bind_eq_error.2 ?_
        rcases stops_cons.1 hstops with hleaves | ⟨⟨candidate, hcandidate, hfound⟩, hstops⟩
        · exact .inl ((Host.canonicalize_eq_violation_iff hposix hroot).2 ⟨root, hleaves, rfl⟩)
        · exact .inr ⟨candidate, hcandidate,
            bind_eq_error.2 (.inr ⟨false, hfound, ih.2 ⟨root, hstops, rfl⟩⟩)⟩

theorem inspect_eq_violation_iff {sandbox : Sandbox} :
    inspect host sandbox path = .error (.violation rule) ↔
      sandbox.isAllowed host path = .error (.violation rule) := by
  constructor
  · intro h
    rcases bind_eq_error.1 h with h | ⟨allowed, -, h⟩
    · exact h
    · cases allowed with
      | false => cases h
      | true =>
          rcases bind_eq_error.1 h with h | ⟨found, -, h⟩
          · exact absurd h Host.ask_ne_violation
          · cases found with
            | false => cases h
            | true =>
                rcases bind_eq_error.1 h with h | ⟨file, -, h⟩
                · exact absurd h Host.ask_ne_violation
                · cases file with
                  | false => cases h
                  | true =>
                      rcases bind_eq_error.1 h with h | ⟨text, -, h⟩
                      · exact absurd h Host.readText_ne_violation
                      · cases h
  · exact fun h => bind_eq_error.2 (.inl h)

theorem find_eq_violation_iff {sandbox : Sandbox} (hposix : host.platform = .posix)
    (hroot : host.Rooted) :
    find host sandbox name = .error (.violation rule) ↔
      ∃ root, (SearchStops host (withoutScheme name) sandbox.searchPrefixes root ∨
          ∃ path, findCandidate host (withoutScheme name) [] sandbox.searchPrefixes = .ok path ∧
            Sandbox.CheckStops host path sandbox.boundary root) ∧
        rule = .anchoredPathNotRooted root := by
  have hcanonical : ∀ {path},
      findCandidate host (withoutScheme name) [] sandbox.searchPrefixes = .ok path →
        IsCanonical path := by
    intro path h
    obtain ⟨root, before, after, -, -, hpath, -⟩ :=
      exists_chosen_of_findCandidate (by simp [Sandbox.searchPrefixes]) h
    exact Host.isCanonical_of_canonicalize hposix hpath
  -- A read breaks a rule on the way of the search, or else in the comparison of what it has found.
  rw [find_eq, bind_eq_error, findCandidate_eq_violation_iff hposix hroot]
  simp only [inspect_eq_violation_iff]
  constructor
  · rintro (⟨root, hstops, rfl⟩ | ⟨path, hpath, h⟩)
    · exact ⟨root, .inl hstops, rfl⟩
    · obtain ⟨root, hstops, rfl⟩ :=
        (Sandbox.liesBelowAny_eq_violation_iff hposix hroot (hcanonical hpath)).1 h
      exact ⟨root, .inr ⟨path, hpath, hstops⟩, rfl⟩
  · rintro ⟨root, hstops | ⟨path, hpath, hstops⟩, rfl⟩
    · exact .inl ⟨root, hstops, rfl⟩
    · exact .inr ⟨path, hpath, (Sandbox.liesBelowAny_eq_violation_iff hposix hroot
        (hcanonical hpath)).2 ⟨root, hstops, rfl⟩⟩

/-- A read passes on the violations of its search, and refuses every other kind. -/
theorem read_eq_error_iff {fault : Fault} :
    (s.read host kind name).1 = .error fault ↔
      kind ≠ sourceKind ∧ fault = .violation (.unsupportedKind kind) ∨
        kind = sourceKind ∧ ∃ rule, fault = .violation rule ∧
          find host s.sandbox name = .error (.violation rule) := by
  by_cases hkind : kind = sourceKind
  · simp only [read, hkind, if_true, load]
    cases hfind : find host s.sandbox name with
    | error found => cases found <;> simp [conclude, eq_comm]
    | ok finding => cases finding <;> simp [conclude]
  · simp [read, hkind, eq_comm]

/-- A read of the supported kind fails exactly where, on the way of the search or in the comparison
with the boundary, resolving the links of a path leaves a network root and nothing more. -/
theorem read_fails_iff (hposix : host.platform = .posix) (hroot : host.Rooted) {fault : Fault} :
    (s.read host kind name).1 = .error fault ↔
      kind ≠ sourceKind ∧ fault = .violation (.unsupportedKind kind) ∨
        kind = sourceKind ∧ ∃ root, fault = .violation (.anchoredPathNotRooted root) ∧
          (SearchStops host (withoutScheme name) s.sandbox.searchPrefixes root ∨
            ∃ path, findCandidate host (withoutScheme name) [] s.sandbox.searchPrefixes = .ok path ∧
              Sandbox.CheckStops host path s.sandbox.boundary root) := by
  rw [read_eq_error_iff]
  simp only [find_eq_violation_iff hposix hroot]
  constructor
  · rintro (h | ⟨hkind, rule, rfl, root, hstops, rfl⟩)
    · exact .inl h
    · exact .inr ⟨hkind, root, rfl, hstops⟩
  · rintro (h | ⟨hkind, root, rfl, hstops⟩)
    · exact .inl h
    · exact .inr ⟨hkind, _, rfl, root, hstops, rfl⟩

def looping : Host where
  platform := .posix
  tree := ⟨[(["d".toList], .link "d".toList)]⟩
  workDir := some ['/']

def belowRoot : Session where
  sandbox := ⟨['/'], [], []⟩
  registry := .empty

/-- What follows a link to itself is left as it is written, and three slashes then leave two. -/
theorem read_fails_looping :
    (belowRoot.read looping sourceKind "../d///d".toList).1 =
      .error (.violation (.anchoredPathNotRooted "//d".toList)) := by
  have hrooted : looping.Rooted := by
    intro workDir hwork
    obtain rfl := Option.some.inj hwork
    rfl
  have hstops : SearchStops looping (withoutScheme "../d///d".toList)
      belowRoot.sandbox.searchPrefixes "//d".toList :=
    ⟨[], ['/'], [], rfl, by simp, by cbv, .inr ⟨['d'], by simp, by decide, rfl⟩, by simp⟩
  exact (read_fails_iff rfl hrooted).2 (.inr ⟨rfl, "//d".toList, rfl, .inl hstops⟩)

/-- A read of the supported kind fails although nothing but an import was asked for. -/
theorem read_source_fails :
    (Sandbox.build looping ['/'] [] []).1 = .ok belowRoot.sandbox ∧
      looping.workDir = some ['/'] ∧
      (belowRoot.read looping sourceKind "d///d".toList).1 =
        .error (.violation (.anchoredPathNotRooted "//d".toList)) :=
  ⟨by cbv, rfl, by cbv⟩

end Session

end SourceLoader
