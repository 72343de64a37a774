import Mathlib
import SourceLoader.Proofs.Program.Steps

/-!
What a run reports. Its sandbox, the names of its inputs and the answers to its imports are found
out without the log and without what has been registered before. From these follow how the run ends
and what it prints: the answers in order, and the names of the sources in the order in which they
were first registered.
-/

namespace SourceLoader.Program

open Log (Journal)

variable {stamp : Stamp} {config : Config} {stdin : Text} {journal : Journal}

def buildFor (host : Host) (config : Config) : Except Fault Sandbox × List Notice :=
  Sandbox.build host (config.basePath.getD []) (config.includePaths.map (·.getD []))
    (config.allowedDirectories ++ config.inputFiles.map inputDirectory)

def sandboxFor (host : Host) (config : Config) : Except Fault Sandbox := (buildFor host config).1

theorem openSession_eq (stamp : Stamp) (config : Config) (journal : Journal) :
    openSession stamp config journal =
      ((sandboxFor journal.host config).map fun _ => (),
        State.report stamp ⟨journal,
          ⟨(sandboxFor journal.host config).toOption.getD .empty, .empty⟩, false⟩
          (buildFor journal.host config).2) := by
  unfold openSession sandboxFor buildFor
  dsimp only
  generalize Sandbox.build journal.host _ _ _ = built
  obtain ⟨sandbox, notices⟩ := built
  cases sandbox <;> rfl

theorem exists_opened (hlog : journal.OnStderr) (stamp : Stamp) {sandbox : Sandbox}
    (h : sandboxFor journal.host config = .ok sandbox) :
    ∃ opened, openSession stamp config journal = (.ok (), opened) ∧
      Leads ⟨journal, ⟨sandbox, .empty⟩, false⟩ opened [] [] false := by
  rw [openSession_eq, h]
  exact ⟨_, rfl, @leads_report ⟨journal, ⟨sandbox, .empty⟩, false⟩ hlog stamp _⟩

def sourceLine (name : Text) : Text := "source ".toList ++ name ++ ['\n']

theorem stdout_foldl_print (line : Text → Text) (names : List Text) (s : State) :
    (names.foldl (fun s name => s.print (line name)) s).journal.stdout =
      s.journal.stdout ++ names.flatMap fun name => line name ++ ['\n'] := by
  induction names generalizing s with
  | nil => simp
  | cons name names ih =>
      have hprint : (s.print (line name)).journal.stdout =
        s.journal.stdout ++ (line name ++ ['\n']) := rfl
      rw [List.foldl_cons, ih, hprint, List.flatMap_cons, List.append_assoc]

theorem stdout_listSources (s : State) :
    (listSources s).journal.stdout =
      s.journal.stdout ++ s.session.registry.names.flatMap sourceLine :=
  stdout_foldl_print ("source ".toList ++ ·) s.session.registry.names s

/-- What a run finds out, apart from what it writes: the source unit names of the inputs, and the
answer to each import. -/
def outcome (host : Host) (config : Config) :
    Except Fault (List Text × List (Option Text × Session.Answer)) := do
  let sandbox ← sandboxFor host config
  let names ← config.inputFiles.mapM (inputName host sandbox)
  let told ← config.resolveNames.mapM (answered host sandbox)
  return (names, told)

/-- The sources of a run in the order in which they come first: the inputs, standard input, and what
the imports have found. -/
def sources (config : Config) (names : List Text) (told : List (Option Text × Session.Answer)) :
    List Text :=
  (names ++ stdinNames config ++ told.flatMap foundName).eraseDups

def exitCode (told : List (Option Text × Session.Answer)) : Int :=
  if told.all (·.2.success) then 0 else 1

def andThen (ending : Except Fault Unit × State) (next : State → Except Fault Int × Journal) :
    Except Fault Int × Journal :=
  match ending with
  | (.error fault, s) => (.error fault, s.journal)
  | (.ok (), s) => next s

theorem fst_andThen {ending : Except Fault Unit × State} {fault : Fault}
    (h : ending.1 = .error fault) (next : State → Except Fault Int × Journal) :
    (andThen ending next).1 = .error fault := by
  obtain ⟨result, s⟩ := ending
  obtain rfl : result = .error fault := h
  rfl

theorem run_eq (stamp : Stamp) (config : Config) (stdin : Text) (journal : Journal) :
    run stamp config stdin journal =
      andThen (openSession stamp config journal) fun opened =>
        andThen (loadFiles stamp opened config.inputFiles) fun loaded =>
          andThen (resolveAll stamp (loadStdin stamp config stdin loaded) config.resolveNames)
            fun resolved => (.ok (if resolved.failed then 1 else 0), (listSources resolved).journal) :=
  rfl

/-- A run whose inputs can be loaded and whose imports all have answers prints the answers and the
sources, and its code tells whether an import has failed. -/
theorem run_of_outcome (hlog : journal.OnStderr) (stamp : Stamp) (stdin : Text)
    {names : List Text} {told : List (Option Text × Session.Answer)}
    (h : outcome journal.host config = .ok (names, told)) :
    ∃ after, run stamp config stdin journal = (.ok (exitCode told), after) ∧
      after.stdout = journal.stdout ++ told.flatMap reportLine ++
        (sources config names told).flatMap sourceLine := by
  obtain ⟨sandbox, hsandbox, h⟩ := bind_eq_ok.1 h
  obtain ⟨names, hnames, h⟩ := bind_eq_ok.1 h
  obtain ⟨told, htold, h⟩ := bind_eq_ok.1 h
  cases h
  obtain ⟨opened, hopen, hopened⟩ := exists_opened hlog stamp hsandbox
  -- Each part of the run is put behind the one before, whose host and sandbox are still the same.
  have hload := ends_loadFiles hopened.onStderr stamp config.inputFiles
  rw [hopened.host, hopened.sandbox] at hload
  obtain ⟨loaded, hload, hloaded⟩ := hload.of_ok hnames
  have hread := hopened.trans (hloaded.trans
    (leads_loadStdin hloaded.onStderr stamp config stdin))
  have hresolve := ends_resolveAll hread.onStderr stamp config.resolveNames
  rw [hread.host, hread.sandbox] at hresolve
  obtain ⟨resolved, hresolve, hresolved⟩ := hresolve.of_ok htold
  have hall := hread.trans hresolved
  simp only [id, List.nil_append, Bool.false_or] at hall
  have hcode : (if resolved.failed then 1 else 0) = exitCode told := by
    rw [hall.failed, Bool.false_or, ← List.not_all_eq_any_not, exitCode]
    cases told.all (·.2.success) <;> rfl
  refine ⟨(listSources resolved).journal, ?_, ?_⟩
  · rw [run_eq, hopen, andThen, hload, andThen, hresolve, andThen, hcode]
  · rw [stdout_listSources, hall.stdout, hall.names, sources, ← foldl_enlist]
    rfl

/-- A run fails with what stops it first: its sandbox, an input or an import. -/
theorem fst_run_of_outcome (hlog : journal.OnStderr) (stamp : Stamp) (stdin : Text) {fault : Fault}
    (h : outcome journal.host config = .error fault) :
    (run stamp config stdin journal).1 = .error fault := by
  rcases bind_eq_error.1 h with h | ⟨sandbox, hsandbox, h⟩
  · rw [run_eq, openSession_eq, h]
    exact fst_andThen rfl _
  · obtain ⟨opened, hopen, hopened⟩ := exists_opened hlog stamp hsandbox
    have hload := ends_loadFiles hopened.onStderr stamp config.inputFiles
    rw [hopened.host, hopened.sandbox] at hload
    rw [run_eq, hopen, andThen]
    rcases bind_eq_error.1 h with h | ⟨names, hnames, h⟩
    · exact fst_andThen (hload.of_error h) _
    · obtain ⟨loaded, hload, hloaded⟩ := hload.of_ok hnames
      have hread := hopened.trans (hloaded.trans
        (leads_loadStdin hloaded.onStderr stamp config stdin))
      have hresolve := ends_resolveAll hread.onStderr stamp config.resolveNames
      rw [hread.host, hread.sandbox] at hresolve
      rw [hload, andThen]
      rcases bind_eq_error.1 h with h | ⟨told, htold, h⟩
      · exact fst_andThen (hresolve.of_error h) _
      · cases h

/-- A run that ends with a code has printed, for each import in order, the answer that the import
has on its own, and then the names of the sources in the order in which they came first: the inputs,
standard input, and what the imports have found. The code tells whether an import has failed. -/
theorem run_reports (hlog : journal.OnStderr) {after : Journal} {code : Int}
    (h : run stamp config stdin journal = (.ok code, after)) :
    ∃ sandbox names told, sandboxFor journal.host config = .ok sandbox ∧
      config.inputFiles.mapM (sandbox.unitName journal.host) = .ok names ∧
      config.resolveNames.mapM (answered journal.host sandbox) = .ok told ∧
      after.stdout = journal.stdout ++ told.flatMap reportLine ++
        (names ++ stdinNames config ++ told.flatMap foundName).eraseDups.flatMap sourceLine ∧
      code = if told.all (·.2.success) then 0 else 1 := by
  cases houtcome : outcome journal.host config with
  | error fault =>
      have hfault := fst_run_of_outcome hlog stamp stdin houtcome
      rw [h] at hfault
      cases hfault
  | ok found =>
      obtain ⟨names, told⟩ := found
      obtain ⟨after', hrun, hstdout⟩ := run_of_outcome hlog stamp stdin houtcome
      obtain ⟨hcode, rfl⟩ := Prod.mk.inj (h.symm.trans hrun)
      obtain ⟨sandbox, hsandbox, h⟩ := bind_eq_ok.1 houtcome
      obtain ⟨names, hnames, h⟩ := bind_eq_ok.1 h
      obtain ⟨told, htold, h⟩ := bind_eq_ok.1 h
      cases h
      exact ⟨sandbox, names, told, hsandbox, unitNames_of_inputNames hnames, htold, hstdout,
        Except.ok.inj hcode⟩

def workshop : Host where
  platform := .posix
  tree := ⟨[(["w".toList], .directory false), (["w".toList, "a".toList], .file [65] false),
    (["w".toList, "b".toList], .file [66] false)]⟩
  workDir := some "/w".toList

/-- One file is given twice, by different paths, and imported as well; another one is imported
twice. -/
def errand : Config where
  basePath := some []
  includePaths := []
  allowedDirectories := []
  inputFiles := ["a".toList, "../w/./a".toList]
  readStdin := true
  resolveNames := [some "b".toList, some "x".toList, some "b".toList, some "a".toList]

def chatty : Journal :=
  { Journal.initial workshop with threshold := 10, handler := some ⟨.stderr, 10, true⟩ }

def errandAnswers : List (Option Text × Session.Answer) :=
  [(some "b".toList, ⟨true, ['B']⟩), (some "x".toList, ⟨false, Session.notFoundMessage⟩),
    (some "b".toList, ⟨true, ['B']⟩), (some "a".toList, ⟨true, ['A']⟩)]

/-- The file that is given twice is listed once and first, though it is imported last. -/
theorem run_reports_errand :
    chatty.OnStderr ∧ ∃ after, run ⟨[], 0⟩ errand ['S'] chatty = (.ok 1, after) ∧
      after.stdout = ("ok b\nerror x: File not found.\nok b\nok a\n" ++
        "source a\nsource <stdin>\nsource b\n").toList := by
  have hlog : chatty.OnStderr := by
    rintro handler ⟨rfl⟩
    rfl
  have houtcome : outcome workshop errand = .ok (["a".toList, "a".toList], errandAnswers) := by cbv
  obtain ⟨after, hrun, -⟩ := run_of_outcome hlog ⟨[], 0⟩ ['S'] houtcome
  have hcode : exitCode errandAnswers = 1 := by cbv
  rw [hcode] at hrun
  refine ⟨hlog, after, hrun, ?_⟩
  obtain ⟨sandbox, names, told, hsandbox, hnames, htold, hstdout, -⟩ := run_reports hlog hrun
  have hbuilt : sandboxFor workshop errand = .ok ⟨[], [], ["/w".toList, "/w/".toList]⟩ := by cbv
  obtain rfl := Except.ok.inj (hsandbox.symm.trans hbuilt)
  have hnamed : errand.inputFiles.mapM (Sandbox.unitName workshop
      ⟨[], [], ["/w".toList, "/w/".toList]⟩) = .ok ["a".toList, "a".toList] := by cbv
  obtain rfl := Except.ok.inj (hnames.symm.trans hnamed)
  have hanswered : errand.resolveNames.mapM (answered workshop
      ⟨[], [], ["/w".toList, "/w/".toList]⟩) = .ok errandAnswers := by cbv
  obtain rfl := Except.ok.inj (htold.symm.trans hanswered)
  have hfound : errandAnswers.flatMap foundName = ["b".toList, "b".toList, "a".toList] := by cbv
  have hsources : (["a".toList, "a".toList] ++ stdinNames errand ++
      ["b".toList, "b".toList, "a".toList]).eraseDups =
        ["a".toList, "<stdin>".toList, "b".toList] := by decide
  rw [hstdout, hfound, hsources]
  decide

end SourceLoader.Program
