import Mathlib
import SourceLoader.Proofs.Program.Report
import SourceLoader.Proofs.Session.Tame

/-!
How a call of the program ends. An error of the host is reported and makes the call fail, and a
violation is passed on. What is left are options without a text and the one step of a run that is
not tame: an input that cannot be read as a text ends the call with a fault of its own.
-/

namespace SourceLoader.Program

open Log (Journal)

variable {host : Host} {sandbox : Sandbox} {config : Config} {fault : Fault}

theorem inputName_eq_error_iff (hwork : Tame host.canonicalWorkDir) {path : Text}
    (hfault : ¬ fault.Handled) :
    inputName host sandbox path = .error fault ↔ host.Escapes path fault := by
  constructor
  · intro h
    rcases bind_eq_error.1 h with h | ⟨text, -, h⟩
    · exact Host.escapes_of_readText h hfault
    · exact absurd (sandbox.tame_unitName hwork path fault h) hfault
  · intro h
    exact bind_eq_error.2 (.inl h.readText)

theorem tame_answered (host : Host) (sandbox : Sandbox) (name : Option Text) :
    Tame (answered host sandbox name) := by
  refine Tame.map ?_ _
  cases name with
  | none => exact tame_ok _
  | some name => exact Session.tame_read host _ _ name

theorem mapM_eq_error_iff {β : Type} {f : Text → Except Fault β} {xs : List Text} :
    xs.mapM f = .error fault ↔
      Stops (fun x => ∃ b, f x = .ok b) (fun x => f x = .error fault) xs := by
  induction xs with
  | nil =>
      rw [List.mapM_nil]
      exact ⟨nofun, fun h => absurd h stops_nil⟩
  | cons x xs ih =>
      rw [List.mapM_cons, stops_cons, bind_eq_error, ← ih]
      refine or_congr_right ⟨?_, ?_⟩
      · rintro ⟨b, hb, h⟩
        refine ⟨⟨b, hb⟩, ?_⟩
        rcases bind_eq_error.1 h with h | ⟨bs, -, h⟩
        · exact h
        · cases h
      · rintro ⟨⟨b, hb⟩, h⟩
        exact ⟨b, hb, bind_eq_error.2 (.inl h)⟩

theorem tame_mapM {α β : Type} {f : α → Except Fault β} (hf : ∀ x, Tame (f x)) (xs : List α) :
    Tame (xs.mapM f) := by
  induction xs with
  | nil => exact tame_ok []
  | cons x xs ih =>
      rw [List.mapM_cons]
      exact (hf x).bind fun _ => ih.bind fun _ => tame_ok _

/-- Whether an input can be loaded. -/
def Loads (host : Host) (sandbox : Sandbox) (path : Text) : Prop :=
  ∃ name, inputName host sandbox path = .ok name

/-- A run fails with what it is not prepared for only where it comes to an input that cannot be read
as a text. -/
theorem outcome_eq_error_iff (hwork : Tame host.canonicalWorkDir) (hfault : ¬ fault.Handled) :
    outcome host config = .error fault ↔
      ∃ sandbox, sandboxFor host config = .ok sandbox ∧
        Stops (Loads host sandbox) (host.Escapes · fault) config.inputFiles := by
  have hstops : ∀ sandbox, config.inputFiles.mapM (inputName host sandbox) = .error fault ↔
      Stops (Loads host sandbox) (host.Escapes · fault) config.inputFiles := by
    intro sandbox
    rw [mapM_eq_error_iff]
    simp only [inputName_eq_error_iff hwork hfault]
    rfl
  constructor
  · intro h
    rcases bind_eq_error.1 h with h | ⟨sandbox, hsandbox, h⟩
    · exact absurd (Sandbox.tame_applyAll hwork _ _ fault h) hfault
    · rcases bind_eq_error.1 h with h | ⟨names, -, h⟩
      · exact ⟨sandbox, hsandbox, (hstops sandbox).1 h⟩
      · rcases bind_eq_error.1 h with h | ⟨told, -, h⟩
        · exact absurd (tame_mapM (tame_answered host sandbox) _ fault h) hfault
        · cases h
  · rintro ⟨sandbox, hsandbox, h⟩
    exact bind_eq_error.2 (.inr ⟨sandbox, hsandbox, bind_eq_error.2 (.inl ((hstops sandbox).2 h))⟩)

def endingOf : Except Fault (List Text × List (Option Text × Session.Answer)) → Ending
  | .ok (_, told) => .exit (exitCode told)
  | .error (.os _) => .exit 1
  | .error fault => .fault fault

theorem code_of_endingOf {found : Except Fault (List Text × List (Option Text × Session.Answer))}
    {code : Int} (h : endingOf found = .exit code) : code = 0 ∨ code = 1 := by
  unfold endingOf at h
  split at h
  · cases h
    unfold exitCode
    split
    · exact .inl rfl
    · exact .inr rfl
  · cases h
    exact .inr rfl
  · cases h

theorem endingOf_eq_fault_iff
    {found : Except Fault (List Text × List (Option Text × Session.Answer))}
    (h : ∀ rule, fault ≠ .violation rule) :
    endingOf found = .fault fault ↔ found = .error fault ∧ ¬ fault.Handled := by
  constructor
  · intro hending
    unfold endingOf at hending
    split at hending
    · cases hending
    · cases hending
    · next hos =>
      cases hending
      refine ⟨rfl, fun hhandled => ?_⟩
      cases fault with
      | os error => exact hos error rfl
      | violation rule => exact h rule rfl
      | embeddedNul | malformed | reservedField | noText => exact hhandled
  · rintro ⟨rfl, hfault⟩
    cases fault with
    | os | violation => exact absurd trivial hfault
    | embeddedNul | malformed | reservedField | noText => rfl

theorem fst_conclude_run {journal : Journal} (hlog : journal.OnStderr) (stamp : Stamp)
    (config : Config) (stdin : Text) :
    (conclude stamp (run stamp config stdin journal)).1 =
      endingOf (outcome journal.host config) := by
  cases houtcome : outcome journal.host config with
  | ok found =>
      obtain ⟨after, hrun, -⟩ := run_of_outcome hlog stamp stdin houtcome
      rw [hrun]
      rfl
  | error fault =>
      have hrun := fst_run_of_outcome hlog stamp stdin houtcome
      generalize run stamp config stdin journal = ended at hrun ⊢
      obtain ⟨result, after⟩ := ended
      obtain rfl : result = .error fault := hrun
      cases fault <;> rfl

section

variable {env : Options.Environment} {arguments : List Text} {settings : Options.Settings}

theorem fst_call_of_noLevel (hparse : Options.parse env arguments = .settings settings)
    (h : settings.logLevel = none) (host : Host) (seconds : Int) (stdin : Text) :
    (call host env seconds arguments stdin).1 = .fault (.noText "upper".toList) := by
  simp only [call, hparse, start, h]

/-- With a log on standard error, a call that has a level for it ends as its run says, if its
settings make a configuration. -/
theorem fst_call (hparse : Options.parse env arguments = .settings settings)
    (hstderr : (Journal.destinationName settings.logDestination).lower = "stderr".toList)
    (hlevel : settings.logLevel ≠ none) (host : Host) (seconds : Int) (stdin : Text) :
    (call host env seconds arguments stdin).1 =
      match Config.ofSettings settings with
      | .error fault => .fault fault
      | .ok config => endingOf (outcome host config) := by
  obtain ⟨level, hlevel⟩ := Option.ne_none_iff_exists'.1 hlevel
  obtain ⟨added, hconfigure⟩ := Journal.configure_stderr (Journal.initial host)
    (Runs.none.enter none).current seconds level hstderr
    (settings.logFormat = some "json".toList)
  simp only [call, hparse, start, hlevel]
  rw [hconfigure]
  cases Config.ofSettings settings with
  | error fault => rfl
  | ok config =>
      set placed : Journal := { Journal.initial host with
        threshold := Log.levelOfName level
        handler := some ⟨.stderr, Log.levelOfName level, _⟩
        stderr := (Journal.initial host).stderr ++ added }
      have hlog : placed.OnStderr := by
        rintro handler ⟨rfl⟩
        rfl
      obtain ⟨more, hmore⟩ := hlog.report (Runs.none.enter none).current seconds
        [.starting config.basePath config.includePaths config.allowedDirectories config.inputFiles]
      have hstarted : ({ placed with stderr := placed.stderr ++ more } : Journal).OnStderr := hlog
      simp only [hmore]
      exact fst_conclude_run hstarted _ config stdin

/-- The faults with which a call can end, apart from violations. -/
inductive Leaves (host : Host) (settings : Options.Settings) : Fault → Prop
  | noLevel (h : settings.logLevel = none) : Leaves host settings (.noText "upper".toList)
  | noAllowPaths (hlevel : settings.logLevel ≠ none) (h : settings.allowPaths = none) :
      Leaves host settings (.noText "split".toList)
  | input {config : Config} {sandbox : Sandbox} {fault : Fault} (hlevel : settings.logLevel ≠ none)
      (hconfig : Config.ofSettings settings = .ok config)
      (hsandbox : sandboxFor host config = .ok sandbox)
      (hstops : Stops (Loads host sandbox) (host.Escapes · fault) config.inputFiles) :
      Leaves host settings fault

theorem leaves_iff_of_noLevel (h : settings.logLevel = none) :
    Leaves host settings fault ↔ fault = .noText "upper".toList := by
  constructor
  · rintro (⟨-⟩ | ⟨hlevel, -⟩ | ⟨hlevel, -, -, -⟩)
    · rfl
    · exact absurd h hlevel
    · exact absurd h hlevel
  · rintro rfl
    exact .noLevel h

theorem leaves_iff_of_noAllowPaths (hlevel : settings.logLevel ≠ none)
    (h : settings.allowPaths = none) :
    Leaves host settings fault ↔ fault = .noText "split".toList := by
  constructor
  · rintro (⟨hnone⟩ | ⟨-, -⟩ | ⟨-, hconfig, -, -⟩)
    · exact absurd hnone hlevel
    · rfl
    · simp [Config.ofSettings, h] at hconfig
  · rintro rfl
    exact .noAllowPaths hlevel h

theorem leaves_iff_of_config (hlevel : settings.logLevel ≠ none)
    (hconfig : Config.ofSettings settings = .ok config) :
    Leaves host settings fault ↔
      ∃ sandbox, sandboxFor host config = .ok sandbox ∧
        Stops (Loads host sandbox) (host.Escapes · fault) config.inputFiles := by
  constructor
  · rintro (⟨hnone⟩ | ⟨-, hnone⟩ | ⟨-, hconfig', hsandbox, hstops⟩)
    · exact absurd hnone hlevel
    · simp [Config.ofSettings, hnone] at hconfig
    · obtain rfl := Except.ok.inj (hconfig.symm.trans hconfig')
      exact ⟨_, hsandbox, hstops⟩
  · rintro ⟨sandbox, hsandbox, hstops⟩
    exact .input hlevel hconfig hsandbox hstops

/-- With a log on standard error, a call that is accepted ends with the code 0 or 1, or with a
violation, unless an option is without a text that it needs or the call comes to an input that
cannot be read as a text. -/
theorem call_ends (hparse : Options.parse env arguments = .settings settings)
    (hstderr : (Journal.destinationName settings.logDestination).lower = "stderr".toList)
    (hnul : host.canonicalWorkDir ≠ .error .embeddedNul) (seconds : Int) (stdin : Text) :
    (∀ code, (call host env seconds arguments stdin).1 = .exit code → code = 0 ∨ code = 1) ∧
      ∀ fault, (∀ rule, fault ≠ .violation rule) →
        ((call host env seconds arguments stdin).1 = .fault fault ↔ Leaves host settings fault) := by
  have hfault : ∀ {fault fault' : Fault},
      Ending.fault fault' = .fault fault ↔ fault = fault' := by
    intro fault fault'
    rw [Ending.fault.injEq, eq_comm]
  -- The two options that may be without a text are asked for first, in this order.
  by_cases hlevel : settings.logLevel = none
  · rw [fst_call_of_noLevel hparse hlevel]
    exact ⟨nofun, fun fault _ => hfault.trans (leaves_iff_of_noLevel hlevel).symm⟩
  · rw [fst_call hparse hstderr hlevel]
    cases hallow : settings.allowPaths with
    | none =>
        simp only [Config.ofSettings, hallow]
        exact ⟨nofun, fun fault _ =>
          hfault.trans (leaves_iff_of_noAllowPaths hlevel hallow).symm⟩
    | some allowPaths =>
        obtain ⟨config, hconfig⟩ : ∃ config, Config.ofSettings settings = .ok config := by
          simp [Config.ofSettings, hallow]
        have hwork := tame_canonicalWorkDir hnul
        simp only [hconfig]
        refine ⟨fun code => code_of_endingOf, fun fault hrule => ?_⟩
        rw [endingOf_eq_fault_iff hrule, leaves_iff_of_config hlevel hconfig]
        constructor
        · rintro ⟨houtcome, hhandled⟩
          exact (outcome_eq_error_iff hwork hhandled).1 houtcome
        · rintro ⟨sandbox, hsandbox, hstops⟩
          obtain ⟨path, -, hescapes⟩ := hstops.exists_mem
          have hhandled := hescapes.not_handled
          exact ⟨(outcome_eq_error_iff hwork hhandled).2 ⟨sandbox, hsandbox, hstops⟩, hhandled⟩

end

def garbled : Host where
  platform := .posix
  tree := ⟨[(["a".toList], .file [65] false), (["f".toList], .file [255] false)]⟩
  workDir := some ['/']

def plainSettings (inputs : List Text) : Options.Settings where
  inputs := inputs
  basePath := some []
  includePaths := []
  allowPaths := some []
  resolve := []
  logLevel := some "CRITICAL".toList
  logDestination := some "stderr".toList
  logFormat := some "json".toList

/-- The call comes to the second input, since the first can be loaded. -/
theorem call_ends_garbled :
    Options.parse [] ["--log-level".toList, "critical".toList, "a".toList, "f".toList] =
        .settings (plainSettings ["a".toList, "f".toList]) ∧
      (Journal.destinationName (plainSettings ["a".toList, "f".toList]).logDestination).lower =
        "stderr".toList ∧
      garbled.canonicalWorkDir ≠ .error .embeddedNul ∧
      (call garbled [] 0 ["--log-level".toList, "critical".toList, "a".toList, "f".toList] []).1 =
        .fault (.malformed ⟨255, 0, 1, .start⟩) := by
  have hparse : Options.parse [] ["--log-level".toList, "critical".toList, "a".toList,
      "f".toList] = .settings (plainSettings ["a".toList, "f".toList]) := by cbv
  have hstderr : (Journal.destinationName (plainSettings ["a".toList,
      "f".toList]).logDestination).lower = "stderr".toList := by cbv
  have hwork : garbled.canonicalWorkDir = .ok ['/'] := by cbv
  have hnul : garbled.canonicalWorkDir ≠ .error .embeddedNul := by simp [hwork]
  obtain ⟨-, hfault⟩ := call_ends hparse hstderr hnul 0 []
  have hrule : ∀ rule, Fault.malformed ⟨255, 0, 1, .start⟩ ≠ .violation rule := by
    intro rule heq
    cases heq
  refine ⟨hparse, hstderr, hnul, (hfault _ hrule).2 ?_⟩
  have hconfig : Config.ofSettings (plainSettings ["a".toList, "f".toList]) =
      .ok ⟨some [], [], [], ["a".toList, "f".toList], false, []⟩ := by cbv
  have hsandbox : sandboxFor garbled ⟨some [], [], [], ["a".toList, "f".toList], false, []⟩ =
      .ok ⟨[], [], ["/".toList]⟩ := by cbv
  have hloads : Loads garbled ⟨[], [], ["/".toList]⟩ "a".toList := ⟨"a".toList, by cbv⟩
  have hescapes : garbled.Escapes "f".toList (.malformed ⟨255, 0, 1, .start⟩) :=
    @Host.Escapes.malformed garbled "f".toList [255] _ (by cbv) (by cbv)
  have hlevel : (plainSettings ["a".toList, "f".toList]).logLevel ≠ none := Option.some_ne_none _
  exact .input hlevel hconfig hsandbox (stops_cons.2 (.inr ⟨hloads, stops_cons.2 (.inl hescapes)⟩))

/-- A file that is not text is not reported as an input that cannot be loaded. -/
theorem call_ends_with_fault :
    Options.parse [] ["--log-level".toList, "CRITICAL".toList, "/f".toList] =
        .settings (plainSettings ["/f".toList]) ∧
      (Journal.destinationName (plainSettings ["/f".toList]).logDestination).lower =
        "stderr".toList ∧
      (call garbled [] 0 ["--log-level".toList, "CRITICAL".toList, "/f".toList] []).1 =
        .fault (.malformed ⟨255, 0, 1, .start⟩) := by
  have hparse : Options.parse [] ["--log-level".toList, "CRITICAL".toList, "/f".toList] =
      .settings (plainSettings ["/f".toList]) := by cbv
  have hstderr : (Journal.destinationName (plainSettings ["/f".toList]).logDestination).lower =
      "stderr".toList := by cbv
  refine ⟨hparse, hstderr, ?_⟩
  rw [fst_call hparse hstderr (Option.some_ne_none _)]
  cbv

end SourceLoader.Program
