import SourceLoader.Session

/-!
Operations write by write. Here an operation is work on a session in which every check, every
request to the host and every write is a step of its own, and what has been written stays written
when a later step fails. No operation writes anything before its last step that can fail, so doing
it in this way comes to the same as doing it at once.
-/

namespace SourceLoader

/-- Work on a session. A fault does not undo what was written before it. -/
abbrev Work := ExceptT Fault (StateM Session)

namespace Work

def setBasePath (host : Host) (path : Text) : Work Unit := do
  if path = [] then
    if (← get).sandbox.includePaths ≠ [] then throw (.violation .includesWithoutBase)
    modify fun s => { s with sandbox := { s.sandbox with basePath := [] } }
  else
    let basePath ← host.canonicalize path false
    modify fun s => { s with sandbox := { s.sandbox with basePath := basePath } }

def addIncludePath (host : Host) (path : Text) : Work Unit := do
  if (← get).sandbox.basePath = [] then throw (.violation .includeBeforeBase)
  if path = [] then throw (.violation .emptyInclude)
  let directory ← host.canonicalize path false
  modify fun s =>
    { s with sandbox := { s.sandbox with includePaths := s.sandbox.includePaths ++ [directory] } }

def allowDirectory (host : Host) (path : Text) : Work Unit := do
  if path = [] then throw (.violation .emptyAllowed)
  let directory ← host.canonicalize path false
  if directory ∈ (← get).sandbox.allowed then return
  modify fun s =>
    { s with
      sandbox := { s.sandbox with allowed := Sandbox.insertDirectory directory s.sandbox.allowed } }

def change (host : Host) : Sandbox.Change → Work Unit
  | .setBasePath path => setBasePath host path
  | .addIncludePath path => addIncludePath host path
  | .allowDirectory path => allowDirectory host path

def register (name text : Text) : Work Unit :=
  modify fun s => { s with registry := s.registry.set name text }

def setSource (host : Host) (path text : Text) : Work Unit := do
  let name ← (← get).sandbox.unitName host path
  register name text

/-- Searches for an import, and stores its text before it is given back. -/
def load (host : Host) (name : Text) : Work Session.Answer := do
  let sandbox := (← get).sandbox
  let path ← Session.findCandidate host (Session.withoutScheme name) [] sandbox.searchPrefixes
  if !(← sandbox.isAllowed host path) then return ⟨false, Session.outsideMessage⟩
  if !(← host.pathExists (Session.hostPath path)) then return ⟨false, Session.notFoundMessage⟩
  if !(← host.isFile (Session.hostPath path)) then return ⟨false, Session.notRegularMessage⟩
  let text ← host.readText (Session.hostPath path)
  register name text
  return ⟨true, text⟩

def read (host : Host) (kind name : Text) : Work Session.Answer := do
  if kind ≠ Session.sourceKind then throw (.violation (.unsupportedKind kind))
  tryCatch (load host name) fun
    | .violation rule => throw (.violation rule)
    | fault => pure ⟨false, Session.faultMessage fault⟩

def ofOperation (host : Host) : Operation → Work Reply
  | .change c => do
    change host c
    return .done
  | .isAllowed candidate => do
    return .verdict (← (← get).sandbox.isAllowed host candidate)
  | .unitName path => do
    return .name (← (← get).sandbox.unitName host path)
  | .setSource path text => do
    setSource host path text
    return .done
  | .setStdin text => do
    register Session.stdinName text
    return .done
  | .setSources sources => do
    modify fun s => { s with registry := .ofList sources }
    return .done
  | .read kind name => do
    return .answer (← read host kind name)

def runOn {α : Type} (w : Work α) (s : Session) : Except Fault α × Session :=
  (ExceptT.run w).run s

section

variable {α β : Type} (s : Session)

@[simp] theorem runOn_get : (get : Work Session).runOn s = (.ok s, s) := rfl

@[simp] theorem runOn_liftM (answer : Except Fault α) :
    (liftM answer : Work α).runOn s = (answer, s) := rfl

@[simp] theorem runOn_bind (w : Work α) (f : α → Work β) :
    (w >>= f).runOn s =
      match w.runOn s with
      | (.ok a, s') => (f a).runOn s'
      | (.error fault, s') => (.error fault, s') := by
  unfold runOn ExceptT.run StateT.run
  simp only [bind, ExceptT.bind, ExceptT.mk, ExceptT.bindCont, StateT.bind]
  cases w s with
  | mk result s' => cases result <;> rfl

@[simp] theorem runOn_tryCatch (w : Work α) (handle : Fault → Work α) :
    (tryCatch w handle).runOn s =
      match w.runOn s with
      | (.ok a, s') => (.ok a, s')
      | (.error fault, s') => (handle fault).runOn s' := by
  unfold runOn ExceptT.run StateT.run
  simp only [tryCatch, tryCatchThe, MonadExceptOf.tryCatch, ExceptT.tryCatch, ExceptT.mk, bind,
    StateT.bind]
  cases w s with
  | mk result s' => cases result <;> rfl

end

/-- What is left to do after something that only asks: nothing where it fails. -/
def afterwards {α β : Type} (s : Session) (finish : α → Except Fault β × Session) :
    Except Fault α → Except Fault β × Session
  | .ok a => finish a
  | .error fault => (.error fault, s)

/-- Work that begins with a question comes to what the question decides, if this holds of the rest
of it. -/
theorem runOn_ask {α β γ : Type} {s : Session} {finish : γ → Except Fault β × Session}
    {rest : α → Work β} {decided : α → Except Fault γ} (answer : Except Fault α)
    (h : ∀ a, (rest a).runOn s = afterwards s finish (decided a)) :
    (liftM answer >>= rest).runOn s = afterwards s finish (answer >>= decided) := by
  rw [runOn_bind, runOn_liftM]
  cases answer with
  | ok a => exact h a
  | error fault => rfl

theorem runOn_require {β γ : Type} {s : Session} {finish : γ → Except Fault β × Session}
    {broken : Prop} [Decidable broken] {rest : Unit → Work β} {decided : Unit → Except Fault γ}
    (rule : Violation) (h : (rest ()).runOn s = afterwards s finish (decided ())) :
    (if broken then throw (.violation rule) >>= rest else rest ()).runOn s =
      afterwards s finish (if broken then throw (.violation rule) >>= decided else decided ()) := by
  by_cases hbroken : broken
  · rw [if_pos hbroken, if_pos hbroken]
    rfl
  · rw [if_neg hbroken, if_neg hbroken, h]

section

variable (host : Host) (s : Session)

def changed (made : Sandbox × List Notice) : Except Fault Unit × Session :=
  (.ok (), { s with sandbox := made.1 })

theorem runOn_setBasePath (path : Text) :
    (setBasePath host path).runOn s =
      afterwards s (changed s) (s.sandbox.setBasePath host path) := by
  unfold setBasePath Sandbox.setBasePath
  by_cases hpath : path = []
  · rw [if_pos hpath, if_pos hpath, runOn_bind, runOn_get]
    by_cases hincludes : s.sandbox.includePaths ≠ []
    · simp only [if_pos hincludes]
      rfl
    · simp only [if_neg hincludes]
      rfl
  · rw [if_neg hpath, if_neg hpath]
    refine runOn_ask _ fun basePath => ?_
    rfl

theorem runOn_addIncludePath (path : Text) :
    (addIncludePath host path).runOn s =
      afterwards s (changed s) (s.sandbox.addIncludePath host path) := by
  unfold addIncludePath Sandbox.addIncludePath
  rw [runOn_bind, runOn_get]
  refine runOn_require _ ?_
  refine runOn_require _ ?_
  refine runOn_ask _ fun directory => ?_
  rfl

theorem runOn_allowDirectory (path : Text) :
    (allowDirectory host path).runOn s =
      afterwards s (changed s) (s.sandbox.allowDirectory host path) := by
  unfold allowDirectory Sandbox.allowDirectory
  refine runOn_require _ ?_
  refine runOn_ask _ fun directory => ?_
  rw [runOn_bind, runOn_get]
  by_cases hmem : directory ∈ s.sandbox.allowed
  · simp only [hmem, if_true]
    rfl
  · simp only [hmem, if_false]
    rfl

theorem runOn_change (c : Sandbox.Change) :
    (change host c).runOn s = afterwards s (changed s) (s.sandbox.apply host c) := by
  cases c with
  | setBasePath path => exact runOn_setBasePath host s path
  | addIncludePath path => exact runOn_addIncludePath host s path
  | allowDirectory path => exact runOn_allowDirectory host s path

theorem runOn_setSource (path text : Text) :
    (setSource host path text).runOn s =
      afterwards s (fun r => (.ok (), r.1)) (s.setSource host path text) := by
  unfold setSource Session.setSource
  rw [runOn_bind, runOn_get]
  refine runOn_ask _ fun _ => ?_
  rfl

def found (s : Session) (name : Text) (finding : Session.Finding) :
    Except Fault Session.Answer × Session :=
  ((s.conclude name (.ok finding)).1, (s.conclude name (.ok finding)).2.1)

theorem runOn_load (name : Text) :
    (load host name).runOn s =
      afterwards s (found s name) (Session.find host s.sandbox name) := by
  unfold load Session.find
  rw [runOn_bind, runOn_get]
  -- one question after another; the text is stored behind the last of them
  refine runOn_ask _ fun path => ?_
  refine runOn_ask _ fun allowed => ?_
  cases allowed with
  | false => rfl
  | true =>
    refine runOn_ask _ fun present => ?_
    cases present with
    | false => rfl
    | true =>
      refine runOn_ask _ fun regular => ?_
      cases regular with
      | false => rfl
      | true =>
        refine runOn_ask _ fun text => ?_
        rfl

theorem runOn_read (kind name : Text) :
    (read host kind name).runOn s =
      ((s.read host kind name).1, (s.read host kind name).2.1) := by
  unfold read Session.read Session.load
  by_cases hkind : kind = Session.sourceKind
  · simp only [hkind, ne_eq, not_true_eq_false, if_false, if_true, runOn_tryCatch, runOn_load]
    cases Session.find host s.sandbox name with
    | ok finding => cases finding <;> rfl
    | error fault => cases fault <;> rfl
  · simp only [hkind, ne_eq, not_false_eq_true, if_true, if_false]
    rfl

/-- An operation done write by write comes to the same as the operation done at once. -/
theorem runOn_ofOperation (operation : Operation) :
    (ofOperation host operation).runOn s = s.perform host operation := by
  cases operation with
  | change c =>
      simp only [ofOperation, Session.perform, runOn_bind, runOn_change]
      cases s.sandbox.apply host c <;> rfl
  | isAllowed candidate =>
      simp only [ofOperation, Session.perform, runOn_bind, runOn_get, runOn_liftM]
      cases s.sandbox.isAllowed host candidate <;> rfl
  | unitName path =>
      simp only [ofOperation, Session.perform, runOn_bind, runOn_get, runOn_liftM]
      cases s.sandbox.unitName host path <;> rfl
  | setSource path text =>
      simp only [ofOperation, Session.perform, runOn_bind, runOn_setSource]
      cases s.setSource host path text <;> rfl
  | setStdin text => rfl
  | setSources sources => rfl
  | read kind name =>
      simp only [ofOperation, Session.perform, runOn_bind, runOn_read]
      cases (s.read host kind name).1 <;> rfl

end

end Work

end SourceLoader
