import Mathlib
import SourceLoader.Program
import SourceLoader.Proofs.Log.Report
import SourceLoader.Proofs.Registry
import SourceLoader.Proofs.Session.Search

/-!
The steps of a run. With its log on standard error, a step adds to what is printed and to the names
of the sources, and leaves the host and the sandbox as they are. So it ends as it would if it were
the only one of its kind, and so does a row of steps.
-/

namespace SourceLoader.Program

open Log (Journal)

variable {s s' s'' : State}

/-- Adds a name behind those that are known, unless it is one of them. -/
def enlist (names : List Text) (name : Text) : List Text :=
  if name ∈ names then names else names ++ [name]

theorem foldl_enlist (names : List Text) : names.foldl enlist [] = names.eraseDups := by
  induction names using List.reverseRecOn with
  | nil => rfl
  | append_singleton names name ih =>
      rw [List.foldl_append, ih, Registry.eraseDups_concat]
      simp only [List.foldl_cons, List.foldl_nil, enlist, List.mem_eraseDups]

/-- Whether a part of a run leads from one state to another, with what it prints, the names that it
registers, and whether an import fails in it. -/
structure Leads (s s' : State) (printed : Text) (registered : List Text) (failed : Bool) : Prop where
  onStderr : s'.journal.OnStderr
  host : s'.host = s.host
  sandbox : s'.session.sandbox = s.session.sandbox
  stdout : s'.journal.stdout = s.journal.stdout ++ printed
  names : s'.session.registry.names = registered.foldl enlist s.session.registry.names
  failed : s'.failed = (s.failed || failed)

theorem Leads.refl (h : s.journal.OnStderr) : Leads s s [] [] false :=
  ⟨h, rfl, rfl, by simp, rfl, by simp⟩

theorem Leads.trans {printed printed' : Text} {registered registered' : List Text}
    {failed failed' : Bool} (h : Leads s s' printed registered failed)
    (h' : Leads s' s'' printed' registered' failed') :
    Leads s s'' (printed ++ printed') (registered ++ registered') (failed || failed') where
  onStderr := h'.onStderr
  host := h'.host.trans h.host
  sandbox := h'.sandbox.trans h.sandbox
  stdout := by rw [h'.stdout, h.stdout, List.append_assoc]
  names := by rw [h'.names, h.names, List.foldl_append]
  failed := by rw [h'.failed, h.failed, Bool.or_assoc]

theorem leads_report (h : s.journal.OnStderr) (stamp : Stamp) (notices : List Notice) :
    Leads s (s.report stamp notices) [] [] false := by
  obtain ⟨added, hadded⟩ := h.report stamp.run stamp.seconds notices
  have hjournal : (s.report stamp notices).journal =
      { s.journal with stderr := s.journal.stderr ++ added } := hadded
  constructor
  · rw [hjournal]
    exact h
  · rw [State.host, hjournal]
    rfl
  · rfl
  · rw [hjournal]
    simp
  · rfl
  · simp [State.report]

theorem leads_print (h : s.journal.OnStderr) (line : Text) :
    Leads s (s.print line) (line ++ ['\n']) [] false :=
  ⟨h, rfl, rfl, rfl, rfl, by simp [State.print]⟩

theorem leads_set (h : s.journal.OnStderr) (name text : Text) :
    Leads s { s with session := { s.session with
      registry := s.session.registry.set name text } } [] [name] false :=
  ⟨h, rfl, rfl, by simp, Registry.names_set _ _ _, by simp⟩

theorem leads_failed (h : s.journal.OnStderr) (failed : Bool) :
    Leads s { s with failed := s.failed || failed } [] [] failed :=
  ⟨h, rfl, rfl, by simp, rfl, rfl⟩

section

variable {α β : Type} {step : State → α → Except Fault Unit × State}
  {result : Host → Sandbox → α → Except Fault β} {printed : β → Text}
  {registered : β → List Text} {failed : β → Bool}

/-- Whether a part of a run fails where its result is a fault, and otherwise leads on with what the
result says. -/
def Ends (s : State) (result : Except Fault β) (printed : β → Text) (registered : β → List Text)
    (failed : β → Bool) (ending : Except Fault Unit × State) : Prop :=
  match result with
  | .ok b => ∃ s', ending = (.ok (), s') ∧ Leads s s' (printed b) (registered b) (failed b)
  | .error fault => ending.1 = .error fault

theorem Ends.of_ok {ending : Except Fault Unit × State} {r : Except Fault β} {b : β}
    (h : Ends s r printed registered failed ending) (hr : r = .ok b) :
    ∃ s', ending = (.ok (), s') ∧ Leads s s' (printed b) (registered b) (failed b) := by
  rw [hr] at h
  exact h

theorem Ends.of_error {ending : Except Fault Unit × State} {r : Except Fault β} {fault : Fault}
    (h : Ends s r printed registered failed ending) (hr : r = .error fault) :
    ending.1 = .error fault := by
  rw [hr] at h
  exact h

/-- Takes a step for each element, up to the first that fails. -/
def stepAll (step : State → α → Except Fault Unit × State) (s : State) :
    List α → Except Fault Unit × State
  | [] => (.ok (), s)
  | x :: rest =>
    match step s x with
    | (.error fault, s) => (.error fault, s)
    | (.ok (), s) => stepAll step s rest

theorem loadFiles_eq (stamp : Stamp) (s : State) (paths : List Text) :
    loadFiles stamp s paths = stepAll (loadFile stamp) s paths := by
  induction paths generalizing s with
  | nil => rfl
  | cons path paths ih =>
      rcases hstep : loadFile stamp s path with ⟨fault | ⟨⟩, after⟩
      · simp only [loadFiles, stepAll, hstep]
      · simp only [loadFiles, stepAll, hstep, ih]

theorem resolveAll_eq (stamp : Stamp) (s : State) (names : List (Option Text)) :
    resolveAll stamp s names = stepAll (resolve stamp) s names := by
  induction names generalizing s with
  | nil => rfl
  | cons name names ih =>
      rcases hstep : resolve stamp s name with ⟨fault | ⟨⟩, after⟩
      · simp only [resolveAll, stepAll, hstep]
      · simp only [resolveAll, stepAll, hstep, ih]

/-- Steps have the results that each of them has on its own, since none changes the host or the
sandbox. -/
theorem ends_stepAll
    (hstep : ∀ s x, s.journal.OnStderr →
      Ends s (result s.host s.session.sandbox x) printed registered failed (step s x))
    (h : s.journal.OnStderr) (xs : List α) :
    Ends s (xs.mapM (result s.host s.session.sandbox)) (·.flatMap printed) (·.flatMap registered)
      (·.any failed) (stepAll step s xs) := by
  -- The results are those on the first host and sandbox: no step that succeeds changes either.
  induction xs generalizing s with
  | nil => exact ⟨s, rfl, .refl h⟩
  | cons x xs ih =>
      have hfirst := hstep s x h
      rw [List.mapM_cons, stepAll]
      cases hresult : result s.host s.session.sandbox x with
      | error fault =>
          have hfault := hfirst.of_error hresult
          rcases hdone : step s x with ⟨answer, s'⟩
          obtain rfl : answer = .error fault := by rw [← hfault, hdone]
          rfl
      | ok b =>
          obtain ⟨s', hdone, hleads⟩ := hfirst.of_ok hresult
          have hrest := ih hleads.onStderr
          rw [hleads.host, hleads.sandbox] at hrest
          rw [hdone]
          cases hresults : xs.mapM (result s.host s.session.sandbox) with
          | error fault => exact hrest.of_error hresults
          | ok bs =>
              obtain ⟨last, hlast, hlater⟩ := hrest.of_ok hresults
              exact ⟨last, hlast, by simpa using hleads.trans hlater⟩

end

def inputName (host : Host) (sandbox : Sandbox) (path : Text) : Except Fault Text := do
  let _ ← host.readText path
  sandbox.unitName host path

theorem unitNames_of_inputNames {host : Host} {sandbox : Sandbox} {paths names : List Text}
    (h : paths.mapM (inputName host sandbox) = .ok names) :
    paths.mapM (sandbox.unitName host) = .ok names := by
  induction paths generalizing names with
  | nil => exact h
  | cons path paths ih =>
      rw [List.mapM_cons] at h ⊢
      obtain ⟨name, hname, h⟩ := bind_eq_ok.1 h
      obtain ⟨others, hothers, h⟩ := bind_eq_ok.1 h
      obtain ⟨text, -, hname⟩ := bind_eq_ok.1 hname
      exact bind_eq_ok.2 ⟨name, hname, bind_eq_ok.2 ⟨others, ih hothers, h⟩⟩

theorem ends_loadFile (h : s.journal.OnStderr) (stamp : Stamp) (path : Text) :
    Ends s (inputName s.host s.session.sandbox path) (fun _ => []) (fun name => [name])
      (fun _ => false) (loadFile stamp s path) := by
  unfold inputName loadFile Session.setSource
  cases s.host.readText path with
  | error fault => rfl
  | ok text =>
      simp only [bind, Except.bind]
      cases s.session.sandbox.unitName s.host path with
      | error fault => rfl
      | ok name =>
          have hleads := leads_set h name text
          exact ⟨_, rfl, hleads.trans (leads_report hleads.onStderr stamp [.sourceSet name])⟩

theorem ends_loadFiles (h : s.journal.OnStderr) (stamp : Stamp) (paths : List Text) :
    Ends s (paths.mapM (inputName s.host s.session.sandbox)) (fun _ => []) id (fun _ => false)
      (loadFiles stamp s paths) := by
  rw [loadFiles_eq]
  have hall := ends_stepAll (fun s path h => ends_loadFile h stamp path) h paths
  have hprinted : ∀ names : List Text, (names.flatMap fun _ => ([] : Text)) = [] := by simp
  have hfailed : ∀ names : List Text, (names.any fun _ => false) = false := by simp
  simpa [Ends, hprinted, hfailed] using hall

def stdinNames (config : Config) : List Text :=
  if config.readStdin then [Session.stdinName] else []

theorem leads_loadStdin (h : s.journal.OnStderr) (stamp : Stamp) (config : Config) (stdin : Text) :
    Leads s (loadStdin stamp config stdin s) [] (stdinNames config) false := by
  unfold loadStdin stdinNames
  split
  · have hleads := leads_set h Session.stdinName stdin
    exact hleads.trans (leads_report hleads.onStderr stamp _)
  · exact .refl h

def answer (s : State) : Option Text → Except Fault Session.Answer × Session × List Notice
  | some name => s.session.load s.host name
  | none => namelessAnswer s

def settle (stamp : Stamp) (s : State) (name : Option Text)
    (answered : Except Fault Session.Answer × Session × List Notice) :
    Except Fault Unit × State :=
  let (answer, session, notices) := answered
  let s := State.report stamp { s with session := session } notices
  match answer with
  | .error fault => (.error fault, s)
  | .ok answer =>
    let s := s.print (answerLine (Notice.given name).display answer)
    (.ok (), { s with failed := s.failed || !answer.success })

theorem resolve_eq (stamp : Stamp) (s : State) (name : Option Text) :
    resolve stamp s name =
      settle stamp (s.report stamp [.readStarted name]) name
        (answer (s.report stamp [.readStarted name]) name) := by
  cases name <;> rfl

/-- The answer to an import in a session of its own, in which nothing has been registered. -/
def loneAnswer (host : Host) (sandbox : Sandbox) : Option Text → Except Fault Session.Answer
  | some name => (Session.read host ⟨sandbox, .empty⟩ Session.sourceKind name).1
  | none => (namelessAnswer ⟨.initial host, ⟨sandbox, .empty⟩, false⟩).1

theorem answer_fst (s : State) (name : Option Text) :
    (answer s name).1 = loneAnswer s.host s.session.sandbox name := by
  cases name with
  | none => rfl
  | some name => exact Session.conclude_fst _ _ name _

def answered (host : Host) (sandbox : Sandbox) (name : Option Text) :
    Except Fault (Option Text × Session.Answer) :=
  (name, ·) <$> loneAnswer host sandbox name

def reportLine (told : Option Text × Session.Answer) : Text :=
  answerLine (Notice.given told.1).display told.2 ++ ['\n']

def foundName (told : Option Text × Session.Answer) : List Text :=
  if told.2.success then told.1.toList else []

theorem session_of_answer {session : Session} {name : Option Text} {notices : List Notice}
    {a : Session.Answer} (h : answer s name = (.ok a, session, notices)) :
    session.sandbox = s.session.sandbox ∧
      session.registry.names = (foundName (name, a)).foldl enlist s.session.registry.names := by
  cases name with
  | none =>
      cases h
      exact ⟨rfl, rfl⟩
  | some name =>
      have hconclude : s.session.conclude name (Session.find s.host s.session.sandbox name) =
        (.ok a, session, notices) := h
      cases hfind : Session.find s.host s.session.sandbox name with
      | error fault =>
          rw [hfind] at hconclude
          cases fault <;> cases hconclude <;> exact ⟨rfl, rfl⟩
      | ok finding =>
          rw [hfind] at hconclude
          cases finding with
          | loaded path text =>
              cases hconclude
              exact ⟨rfl, Registry.names_set _ _ _⟩
          | outside | notFound | notRegular =>
              cases hconclude
              exact ⟨rfl, rfl⟩

/-- Apart from what is logged, an import registers what it has found and prints its answer. -/
theorem ends_resolve (h : s.journal.OnStderr) (stamp : Stamp) (name : Option Text) :
    Ends s (answered s.host s.session.sandbox name) reportLine foundName (!·.2.success)
      (resolve stamp s name) := by
  have hstart := leads_report h stamp [.readStarted name]
  have hlone := answer_fst (s.report stamp [.readStarted name]) name
  rw [hstart.host, hstart.sandbox] at hlone
  rw [resolve_eq, answered, ← hlone]
  rcases hanswer : answer (s.report stamp [.readStarted name]) name with ⟨result, session, notices⟩
  cases result with
  | error fault => rfl
  | ok a =>
      obtain ⟨hsandbox, hnames⟩ := session_of_answer hanswer
      have hset : Leads (s.report stamp [.readStarted name])
          { s.report stamp [.readStarted name] with session := session } [] (foundName (name, a))
          false := ⟨hstart.onStderr, rfl, hsandbox, by simp, hnames, by simp⟩
      have hnoted := hstart.trans (hset.trans (leads_report hset.onStderr stamp notices))
      have hprinted := hnoted.trans (leads_print hnoted.onStderr
        (answerLine (Notice.given name).display a))
      have hall := hprinted.trans (leads_failed hprinted.onStderr (!a.success))
      exact ⟨_, rfl, by simpa [reportLine] using hall⟩

theorem ends_resolveAll (h : s.journal.OnStderr) (stamp : Stamp) (names : List (Option Text)) :
    Ends s (names.mapM (answered s.host s.session.sandbox)) (·.flatMap reportLine)
      (·.flatMap foundName) (·.any (!·.2.success)) (resolveAll stamp s names) := by
  rw [resolveAll_eq]
  exact ends_stepAll (fun s name h => ends_resolve h stamp name) h names

end SourceLoader.Program
