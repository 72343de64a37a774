import Mathlib
import SourceLoader.Proofs.Log.Delivery
import SourceLoader.Proofs.Options.Values
import SourceLoader.Proofs.Program.Report

/-!
How a call logs. Level, place and form are chosen once, and nothing that the call does afterwards
changes them. The level and the form are those that the settings say, whether or not they are among
the choices, and the settings say what the call asks for.
-/

namespace SourceLoader

namespace Log.Journal

variable {j k l : Journal}

/-- Whether a log goes on with the level and the handler of another. -/
structure GoesOn (j k : Journal) : Prop where
  threshold : k.threshold = j.threshold
  handler : k.handler = j.handler

theorem GoesOn.refl (j : Journal) : j.GoesOn j := ⟨rfl, rfl⟩

theorem GoesOn.trans (h : j.GoesOn k) (h' : k.GoesOn l) : j.GoesOn l :=
  ⟨h'.threshold.trans h.threshold, h'.handler.trans h.handler⟩

theorem goesOn_write (j : Journal) (sink : Sink) (text : Text) : j.GoesOn (j.write sink text) := by
  obtain ⟨hthreshold, hhandler, -⟩ := j.write_settings sink text
  exact ⟨hthreshold, hhandler⟩

theorem goesOn_report (j : Journal) (run : Text) (seconds : Int) (notices : List Notice) :
    j.GoesOn (j.report run seconds notices) := by
  induction notices generalizing j with
  | nil => exact .refl j
  | cons notice notices ih =>
      obtain ⟨hthreshold, hhandler, -⟩ := j.emit_settings run (ofNotice seconds notice)
      exact GoesOn.trans ⟨hthreshold, hhandler⟩ (ih _)

theorem configure_chooses (j : Journal) (run : Text) (seconds : Int) (level : Text)
    (destination : Option Text) (json : Bool) :
    match ((j.cleared level).openSink destination).1 with
    | .error fault => (j.configure run seconds level destination json).1 = .error fault
    | .ok sink => ∃ k, j.configure run seconds level destination json = (.ok (), k) ∧
        k.threshold = levelOfName level ∧ k.handler = some ⟨sink, levelOfName level, json⟩ := by
  obtain ⟨hthreshold, -⟩ := openSink_settings (j.cleared level) destination
  simp only [configure]
  rw [← cleared]
  generalize (j.cleared level).openSink destination = opened at hthreshold ⊢
  obtain ⟨result, k⟩ := opened
  cases result with
  | error fault => rfl
  | ok sink =>
      obtain ⟨hkept, hhandler⟩ := goesOn_report
        { k with handler := some ⟨sink, levelOfName level, json⟩ } run seconds
        [.logConfigured (destinationName destination) (levelOfName level) json]
      exact ⟨_, rfl, hkept.trans hthreshold, hhandler⟩

end Log.Journal

namespace Program

open Log (Journal)
open Options

variable {journal : Journal}

/-! ### A run goes on with its log -/

theorem goesOn_report (s : State) (stamp : Stamp) (notices : List Notice) :
    s.journal.GoesOn (s.report stamp notices).journal :=
  s.journal.goesOn_report stamp.run stamp.seconds notices

theorem goesOn_print (s : State) (line : Text) : s.journal.GoesOn (s.print line).journal :=
  s.journal.goesOn_write .stdout _

theorem goesOn_loadFile (stamp : Stamp) (s : State) (path : Text) :
    s.journal.GoesOn (loadFile stamp s path).2.journal := by
  unfold loadFile
  split
  · exact .refl s.journal
  · split
    · exact .refl s.journal
    · exact goesOn_report { s with session := _ } stamp _

theorem goesOn_loadStdin (stamp : Stamp) (config : Config) (stdin : Text) (s : State) :
    s.journal.GoesOn (loadStdin stamp config stdin s).journal := by
  unfold loadStdin
  split
  · exact goesOn_report { s with session := _ } stamp _
  · exact .refl s.journal

theorem goesOn_settle (stamp : Stamp) (s : State) (name : Option Text)
    (answered : Except Fault Session.Answer × Session × List Notice) :
    s.journal.GoesOn (settle stamp s name answered).2.journal := by
  obtain ⟨answer, session, notices⟩ := answered
  have hnoted := goesOn_report { s with session := session } stamp notices
  cases answer with
  | error fault => exact hnoted
  | ok answer => exact hnoted.trans (goesOn_print _ (answerLine (Notice.given name).display answer))

theorem goesOn_resolve (stamp : Stamp) (s : State) (name : Option Text) :
    s.journal.GoesOn (resolve stamp s name).2.journal := by
  rw [resolve_eq]
  exact (goesOn_report s stamp _).trans (goesOn_settle stamp _ name _)

theorem goesOn_stepAll {α : Type} {step : State → α → Except Fault Unit × State}
    (hstep : ∀ (s : State) (x : α), s.journal.GoesOn (step s x).2.journal) (s : State)
    (xs : List α) : s.journal.GoesOn (stepAll step s xs).2.journal := by
  induction xs generalizing s with
  | nil => exact .refl s.journal
  | cons x xs ih =>
      have hfirst := hstep s x
      rw [stepAll]
      generalize step s x = first at hfirst ⊢
      rcases first with ⟨fault | ⟨⟩, after⟩
      · exact hfirst
      · exact hfirst.trans (ih after)

theorem goesOn_listSources (s : State) : s.journal.GoesOn (listSources s).journal := by
  unfold listSources
  induction s.session.registry.names generalizing s with
  | nil => exact .refl s.journal
  | cons name names ih => exact (goesOn_print s ("source ".toList ++ name)).trans (ih _)

theorem goesOn_andThen {ending : Except Fault Unit × State}
    {next : State → Except Fault Int × Journal} (h : journal.GoesOn ending.2.journal)
    (hnext : ∀ s : State, s.journal.GoesOn (next s).2) :
    journal.GoesOn (andThen ending next).2 := by
  rcases ending with ⟨fault | ⟨⟩, s⟩
  · exact h
  · exact h.trans (hnext s)

theorem goesOn_run (stamp : Stamp) (config : Config) (stdin : Text) (journal : Journal) :
    journal.GoesOn (run stamp config stdin journal).2 := by
  rw [run_eq, openSession_eq]
  refine goesOn_andThen (goesOn_report ⟨journal, _, false⟩ stamp _) fun opened => ?_
  rw [loadFiles_eq]
  refine goesOn_andThen (goesOn_stepAll (goesOn_loadFile stamp) opened _) fun loaded => ?_
  rw [resolveAll_eq]
  refine goesOn_andThen ?_ fun resolved => goesOn_listSources resolved
  exact (goesOn_loadStdin stamp config stdin loaded).trans
    (goesOn_stepAll (goesOn_resolve stamp) _ _)

theorem goesOn_conclude (stamp : Stamp) (config : Config) (stdin : Text) (journal : Journal) :
    journal.GoesOn (conclude stamp (run stamp config stdin journal)).2 := by
  refine (goesOn_run stamp config stdin journal).trans ?_
  obtain ⟨result, after⟩ := run stamp config stdin journal
  cases result with
  | ok code => exact .refl after
  | error fault =>
      cases fault with
      | os | violation => exact after.goesOn_report _ _ _
      | embeddedNul | malformed | reservedField | noText => exact .refl after

/-! ### A call logs as its settings say -/

variable {env : Environment} {arguments : List Text} {settings : Settings}

theorem levelName_of_choice {level : Text} (h : level ∈ levelChoices) :
    Log.levelName (Log.levelOfName level) = level := by
  revert level
  decide

/-- A call whose settings have a level either ends with the fault with which the place for its log
cannot be opened, or its log goes on with the level and the form of the settings to the end. -/
theorem call_goesOn (hparse : parse env arguments = .settings settings) {level : Text}
    (hlevel : settings.logLevel = some level) (host : Host) (seconds : Int) (stdin : Text) :
    match (((Journal.initial host).cleared level).openSink settings.logDestination).1 with
    | .error fault => (call host env seconds arguments stdin).1 = .fault fault
    | .ok sink =>
      (call host env seconds arguments stdin).2.threshold = Log.levelOfName level ∧
        (call host env seconds arguments stdin).2.handler = some
          ⟨sink, Log.levelOfName level, settings.logFormat = some "json".toList⟩ := by
  have hchoice := (Journal.initial host).configure_chooses (Runs.none.enter none).current seconds
    level settings.logDestination (settings.logFormat = some "json".toList)
  simp only [call, hparse, start, hlevel]
  split at hchoice
  · next fault hopen =>
    generalize (Journal.initial host).configure _ _ _ _ _ = configured at hchoice ⊢
    obtain ⟨result, after⟩ := configured
    obtain rfl : result = .error fault := hchoice
    rfl
  · next sink hopen =>
    obtain ⟨configured, hconfigure, hthreshold, hhandler⟩ := hchoice
    rw [hconfigure]
    cases Config.ofSettings settings with
    | error fault => exact ⟨hthreshold, hhandler⟩
    | ok config =>
        have hended := (configured.goesOn_report (Runs.none.enter none).current seconds
          [.starting config.basePath config.includePaths config.allowedDirectories
            config.inputFiles]).trans
              (goesOn_conclude ⟨(Runs.none.enter none).current, seconds⟩ config stdin _)
        exact ⟨hended.threshold.trans hthreshold, hended.handler.trans hhandler⟩

/-- A call that is accepted has the level and the form that it asks for, each of them one of the
choices if and only if the command line has given it as a text or the environment has made such a
choice. Whatever they are, the call logs with them to its end: at the level that the name stands
for, which is shown under this name where it is a choice, and in JSON if and only if the form says
so. It does not log where it has no level at all, or where the place for the log cannot be opened,
and then it ends with a fault. -/
theorem call_logs (hparse : parse env arguments = .settings settings) :
    (∃ words, classifyAll arguments = .ok words ∧
      settings.logLevel = asked (defaults env) (given words) .logLevel ∧
      settings.logFormat = asked (defaults env) (given words) .logFormat ∧
      ((∃ level ∈ levelChoices, settings.logLevel = some level) ↔
        Chosen (defaults env) (given words) .logLevel levelChoices) ∧
      ((∃ form ∈ formatChoices, settings.logFormat = some form) ↔
        Chosen (defaults env) (given words) .logFormat formatChoices)) ∧
      ∀ host seconds stdin, match settings.logLevel with
        | none => call host env seconds arguments stdin =
            (.fault (.noText "upper".toList), Journal.initial host)
        | some level =>
          (level ∈ levelChoices → Log.levelName (Log.levelOfName level) = level) ∧
            match (((Journal.initial host).cleared level).openSink settings.logDestination).1 with
            | .error fault => (call host env seconds arguments stdin).1 = .fault fault
            | .ok sink =>
              (call host env seconds arguments stdin).2.threshold = Log.levelOfName level ∧
                (call host env seconds arguments stdin).2.handler = some
                  ⟨sink, Log.levelOfName level, settings.logFormat = some "json".toList⟩ := by
  obtain ⟨words, hwords, hasked, hchosen⟩ := kept_of_parse hparse
  refine ⟨⟨words, hwords, hasked .logLevel trivial, hasked .logFormat trivial,
    hchosen .logLevel _ rfl, hchosen .logFormat _ rfl⟩, fun host seconds stdin => ?_⟩
  cases hlevel : settings.logLevel with
  | none => simp only [call, hparse, start, hlevel]
  | some level => exact ⟨levelName_of_choice, call_goesOn hparse hlevel host seconds stdin⟩

def strayVariables : Environment :=
  [("SOURCEVFS_LOG_LEVEL".toList, "verbose".toList),
    ("SOURCEVFS_LOG_FORMAT".toList, "xml".toList)]

def bareSettings (level destination form : Text) : Settings where
  inputs := []
  basePath := some []
  includePaths := []
  allowPaths := some []
  resolve := []
  logLevel := some level
  logDestination := some destination
  logFormat := some form

/-- The command line prevails over the variables, and what it asks for is checked. -/
theorem call_logs_overridden :
    parse strayVariables ["--log-level=debug".toList, "--log-format=JSON".toList,
        "--log-destination=stdout".toList] =
        .settings (bareSettings "DEBUG".toList "stdout".toList "json".toList) ∧
      ∀ host seconds stdin, (call host strayVariables seconds ["--log-level=debug".toList,
        "--log-format=JSON".toList, "--log-destination=stdout".toList] stdin).2.handler =
          some ⟨.stdout, Log.debug, true⟩ := by
  have hparse : parse strayVariables ["--log-level=debug".toList, "--log-format=JSON".toList,
      "--log-destination=stdout".toList] =
        .settings (bareSettings "DEBUG".toList "stdout".toList "json".toList) := by cbv
  obtain ⟨-, hlogs⟩ := call_logs hparse
  exact ⟨hparse, fun host seconds stdin => (hlogs host seconds stdin).2.2⟩

/-- The variables are not checked, and the call logs at a level and in a form that nothing has asked
for. -/
theorem call_logs_stray :
    parse strayVariables [] =
        .settings (bareSettings "VERBOSE".toList "stderr".toList "xml".toList) ∧
      "VERBOSE".toList ∉ levelChoices ∧ "xml".toList ∉ formatChoices ∧
      ∀ host seconds stdin, (call host strayVariables seconds [] stdin).2.handler =
        some ⟨.stderr, Log.info, false⟩ := by
  have hparse : parse strayVariables [] =
      .settings (bareSettings "VERBOSE".toList "stderr".toList "xml".toList) := by cbv
  exact ⟨hparse, by decide, by decide,
    fun host seconds stdin => (call_goesOn hparse rfl host seconds stdin).2⟩

end Program

end SourceLoader
