import SourceLoader.Proofs.Host.Canonicalize
import SourceLoader.Proofs.Options.Silence
import SourceLoader.Proofs.Path.Anchor
import SourceLoader.Proofs.Program.Report
import SourceLoader.Proofs.Session.Tame

/-!
The directories that a call allows. They are listed in one text with commas, which comes from the
environment or from an option. Both ways give the same directories, unless the text is the terminator
of the options, and none of the directories is empty, so a run is never stopped for an empty one.
-/

namespace SourceLoader

open Options

/-! ### No directory is empty -/

namespace Sandbox

variable {host : Host}

theorem apply_ne_emptyAllowed {change : Change} (h : change ≠ .allowDirectory []) (s : Sandbox) :
    FailsOnly (· ≠ .violation .emptyAllowed) (s.apply host change) := by
  have hcanonical : ∀ path,
      FailsOnly (· ≠ .violation .emptyAllowed) (host.canonicalize path false) := by
    refine fun path => (host.failsOnly_canonicalize path false).mono ?_
    rintro fault hfault rfl
    exact hfault
  cases change with
  | setBasePath path =>
      exact .ite (.ite (failsOnly_error nofun) (failsOnly_ok _))
        ((hcanonical path).bind fun _ => failsOnly_ok _)
  | addIncludePath path =>
      exact .ite (failsOnly_error nofun) (.ite (failsOnly_error nofun)
        ((hcanonical path).bind fun _ => failsOnly_ok _))
  | allowDirectory path =>
      have hne : path ≠ [] := fun hnil => h (by rw [hnil])
      rw [apply, allowDirectory, if_neg hne]
      exact (hcanonical path).bind fun _ => .ite (failsOnly_ok _) (failsOnly_ok _)

end Sandbox

namespace Program

variable {config : Config}

theorem inputDirectory_ne_nil (path : Text) : inputDirectory path ≠ [] := by
  have hpieces : ∀ c ∈ (Path.Plain.ofText path).parent.components, c ≠ [] ∧ '/' ∉ c := by
    intro c hc
    obtain ⟨hmem, hkept⟩ := List.mem_filter.1 (List.mem_of_mem_dropLast hc)
    exact ⟨(of_decide_eq_true hkept).1, Text.not_mem_of_mem_splitOn hmem⟩
  unfold inputDirectory Path.Plain.toText
  split
  · decide
  · next hsome =>
    intro hnil
    obtain ⟨hlead, hjoin⟩ := List.append_eq_nil_iff.1 hnil
    exact Path.join_ne_nil hpieces (fun hnone => hsome ⟨hlead, hnone⟩) hjoin

theorem sandboxFor_ne_emptyAllowed (h : [] ∉ config.allowedDirectories) (host : Host) :
    sandboxFor host config ≠ .error (.violation .emptyAllowed) := by
  have hchanges : ∀ change ∈ Sandbox.setup (config.basePath.getD [])
      (config.includePaths.map (·.getD []))
      (config.allowedDirectories ++ config.inputFiles.map inputDirectory),
      change ≠ .allowDirectory [] := by
    rintro change hmem rfl
    have hempty : [] ∈ config.allowedDirectories ++ config.inputFiles.map inputDirectory := by
      simpa [Sandbox.setup] using hmem
    rcases List.mem_append.1 hempty with hempty | hempty
    · exact h hempty
    · obtain ⟨path, -, hpath⟩ := List.mem_map.1 hempty
      exact inputDirectory_ne_nil path hpath
  have hfails : FailsOnly (· ≠ .violation .emptyAllowed) (sandboxFor host config) :=
    Sandbox.failsOnly_applyAll fun change hmem s =>
      Sandbox.apply_ne_emptyAllowed (hchanges change hmem) s
  exact fun hempty => hfails _ hempty rfl

end Program

/-! ### The variable and the option -/

namespace Config

variable {env : Environment} {arguments : List Text} {words : List Word} {settings : Settings}

def ofCall? (env : Environment) (arguments : List Text) : Option (Except Fault Config) :=
  match parse env arguments with
  | .settings settings => some (ofSettings settings)
  | .help | .refused _ => none

def allowPathsWord (v : Text) : Text := "--allow-paths=".toList ++ v

theorem ofCall?_eq (h : parse env arguments = .settings settings) :
    ofCall? env arguments = some (ofSettings settings) := by
  rw [ofCall?, h]

theorem ofSettings_put_congr (s : Settings) {text text' : Text}
    (h : Text.commaItems text = Text.commaItems text') :
    ofSettings (s.put .allowPaths (some text)) = ofSettings (s.put .allowPaths (some text')) := by
  simp only [ofSettings, Settings.put, h]
  rfl

/-- What an option that lists directories to allow leads to. -/
theorem allowed_of_given (hwords : classifyAll arguments = .ok words)
    (hparse : parse env arguments = .settings settings) {v : Text}
    (hgiven : lastGiven .allowPaths (given words) = some (explicitValue v)) :
    (ofSettings settings).map allowedDirectories =
      if v = terminatorText then .error (.noText "split".toList) else .ok (Text.commaItems v) := by
  obtain ⟨words', hwords', hkept, -⟩ := kept_of_parse hparse
  obtain rfl : words' = words := Except.ok.inj (hwords'.symm.trans hwords)
  have hallow : settings.allowPaths = explicitValue v := by
    have hasked := hkept .allowPaths trivial
    simpa [Settings.kept, asked, hgiven, Flag.fold] using hasked
  by_cases hv : v = terminatorText
  · rw [explicitValue, if_pos hv] at hallow
    rw [ofSettings, hallow, if_pos hv]
    rfl
  · rw [explicitValue, if_neg hv] at hallow
    rw [ofSettings, hallow, if_neg hv]
    rfl

/-- A list of directories to allow is taken from the environment and from an option alike: where a
line that does not give the option is accepted, so it is with the list in the environment and with
the option in front of it, and the configuration is the same. It allows what is listed in the text:
the pieces between its commas, each without the blanks around it, as far as something is left. So
nothing that is allowed is empty, and neither a change nor the sandbox of a run is refused for it. An
option on another line that is accepted gives the same directories, wherever it stands. Only where
the list is the terminator of the options, the option is left without a text, and there is no
configuration. -/
theorem allowed_by_variable_or_option (hwords : classifyAll arguments = .ok words)
    (hsilent : Silent .allowPaths words) (hparse : parse env arguments = .settings settings)
    (v : Text) :
    ∃ config, ofCall? ((allowPathsVariable, v) :: env) arguments = some (.ok config) ∧
      ofCall? env (allowPathsWord v :: arguments) = some
        (if v = terminatorText then .error (.noText "split".toList) else .ok config) ∧
      (∀ items, Text.Lists v items ↔ items = config.allowedDirectories) ∧
      (∀ directory ∈ config.allowedDirectories, ∀ (host : Host) (sandbox : Sandbox),
        sandbox.allowDirectory host directory ≠ .error (.violation .emptyAllowed)) ∧
      (∀ host, Program.sandboxFor host config ≠ .error (.violation .emptyAllowed)) ∧
      ∀ env' arguments' words' settings', classifyAll arguments' = .ok words' →
        parse env' arguments' = .settings settings' →
        lastGiven .allowPaths (given words') = some (explicitValue v) →
        (ofSettings settings').map allowedDirectories =
          if v = terminatorText then .error (.noText "split".toList)
          else .ok config.allowedDirectories := by
  have hword : allowPathsWord v = (Argument.option .allowPaths v).spell := rfl
  have hvalid : (Argument.option .allowPaths v).Valid := ⟨by decide, nofun⟩
  obtain ⟨config, hconfig, hallowed⟩ : ∃ config,
      ofSettings (settings.put .allowPaths (some v)) = .ok config ∧
        config.allowedDirectories = Text.commaItems v := ⟨_, rfl, rfl⟩
  have hnil : [] ∉ config.allowedDirectories := by
    rw [hallowed]
    exact fun hmem => Text.ne_nil_of_mem_commaItems hmem rfl
  refine ⟨config, ?_, ?_, fun items => ?_, fun directory hmem host sandbox hempty => ?_,
    Program.sandboxFor_ne_emptyAllowed hnil, fun env' arguments' words' settings' => ?_⟩
  · have hparsed := parse_variable hwords hsilent env v
    rw [hparse] at hparsed
    rw [ofCall?_eq hparsed, ← hconfig,
      ofSettings_put_congr settings (Text.commaItems_join_commaItems v)]
  · have hparsed := parse_front hwords hsilent hvalid env
    rw [hparse] at hparsed
    rw [hword, ofCall?_eq hparsed]
    by_cases hv : v = terminatorText
    · rw [explicitValue, if_pos hv, if_pos hv]
      rfl
    · rw [explicitValue, if_neg hv, if_neg hv, hconfig]
  · rw [hallowed]
    exact Text.lists_iff
  · have hne : Sandbox.Change.allowDirectory directory ≠ .allowDirectory [] := by
      rintro ⟨⟩
      exact hnil hmem
    exact Sandbox.apply_ne_emptyAllowed hne sandbox _ hempty rfl
  · rw [hallowed]
    exact fun hwords' hparse' => allowed_of_given hwords' hparse'

def settingsWith (resolve : List Text) (allowPaths : Text) : Settings where
  inputs := ["a".toList]
  basePath := some []
  includePaths := []
  allowPaths := some allowPaths
  resolve := resolve.map some
  logLevel := some "INFO".toList
  logDestination := some "stderr".toList
  logFormat := some "json".toList

/-- A list with blanks and more commas than it needs: as a variable, as an option in front of a line,
and as an option behind an input, where it prevails over another list and over a variable. -/
theorem allowed_by_variable_or_option_spaced :
    classifyAll ["a".toList, "--resolve=b".toList] =
        .ok [.value "a".toList, .option .resolve (some "b".toList)] ∧
      Silent .allowPaths [.value "a".toList, .option .resolve (some "b".toList)] ∧
      parse [] ["a".toList, "--resolve=b".toList] = .settings (settingsWith ["b".toList] []) ∧
      ∃ config, config.allowedDirectories = ["/shared".toList, "/opt/a b".toList] ∧
        ofCall? [(allowPathsVariable, " /shared,, /opt/a b\t,\u00a0".toList)]
          ["a".toList, "--resolve=b".toList] = some (.ok config) ∧
        ofCall? [] [allowPathsWord " /shared,, /opt/a b\t,\u00a0".toList, "a".toList,
          "--resolve=b".toList] = some (.ok config) ∧
        parse [(allowPathsVariable, "/c".toList)] ["a".toList, "--allow=/d".toList,
            "--allow-paths= /shared,, /opt/a b\t,\u00a0".toList] =
          .settings (settingsWith [] " /shared,, /opt/a b\t,\u00a0".toList) ∧
        (ofSettings (settingsWith [] " /shared,, /opt/a b\t,\u00a0".toList)).map
          allowedDirectories = .ok config.allowedDirectories := by
  have hwords : classifyAll ["a".toList, "--resolve=b".toList] =
      .ok [.value "a".toList, .option .resolve (some "b".toList)] := by cbv
  have hsilent : Silent .allowPaths
      [.value "a".toList, .option .resolve (some "b".toList)] := by simp [Silent]
  have hparse : parse [] ["a".toList, "--resolve=b".toList] =
      .settings (settingsWith ["b".toList] []) := by cbv
  have hwords' : classifyAll ["a".toList, "--allow=/d".toList,
      "--allow-paths= /shared,, /opt/a b\t,\u00a0".toList] =
        .ok [.value "a".toList, .option .allowPaths (some "/d".toList),
          .option .allowPaths (some " /shared,, /opt/a b\t,\u00a0".toList)] := by cbv
  have hparse' : parse [(allowPathsVariable, "/c".toList)] ["a".toList, "--allow=/d".toList,
      "--allow-paths= /shared,, /opt/a b\t,\u00a0".toList] =
        .settings (settingsWith [] " /shared,, /opt/a b\t,\u00a0".toList) := by cbv
  have hspaced : " /shared,, /opt/a b\t,\u00a0".toList ≠ terminatorText := by decide
  have hitems : ["/shared".toList, "/opt/a b".toList] =
      Text.commaItems " /shared,, /opt/a b\t,\u00a0".toList := by cbv
  obtain ⟨config, hvariable, hoption, hlists, -, -, hgiven⟩ :=
    allowed_by_variable_or_option hwords hsilent hparse " /shared,, /opt/a b\t,\u00a0".toList
  have hother := hgiven _ _ _ _ hwords' hparse' rfl
  rw [if_neg hspaced] at hoption hother
  exact ⟨hwords, hsilent, hparse, config, ((hlists _).1 (Text.lists_iff.2 hitems)).symm,
    hvariable, hoption, hparse', hother⟩

/-- The terminator of the options can be a directory in the environment, and not in an option. -/
theorem allowed_by_variable_not_option :
    (ofCall? [(allowPathsVariable, "--".toList)] []).map (·.map allowedDirectories) =
        some (.ok ["--".toList]) ∧
      ofCall? [] ["--allow-paths=--".toList] = some (.error (.noText "split".toList)) := by
  constructor <;> cbv

end Config

end SourceLoader
