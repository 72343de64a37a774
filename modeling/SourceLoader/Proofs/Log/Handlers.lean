import Mathlib
import SourceLoader.Proofs.Log.Delivery

/-!
The handlers of a logger. A logger keeps a list of handlers, and each of them writes every record
that is important enough for it; where there is none, serious records go to standard error. A choice
takes all of them away and then adds one. Kept in this way a log writes the same, and from the first
choice on there is one handler in the list.

A log that is chosen again and again. Whatever is chosen while records are made, each record goes to
what was chosen last before it, and nowhere else, and one handler is installed. Only what is logged
before the first choice goes elsewhere: it appears on standard error as bare messages.
-/

namespace SourceLoader.Log

/-- A log with the handlers of its logger. -/
structure Wiring where
  journal : Journal
  handlers : List Handler

namespace Wiring

/-- The handlers of a log: the one that has been chosen, if there is one. -/
def of (j : Journal) : Wiring := ⟨{ j with handler := none }, j.handler.toList⟩

def handle (run : Text) (r : Record) (j : Journal) (h : Handler) : Journal :=
  if h.level ≤ r.level then j.writeLine h.sink (h.line? (r.stamp run)) else j

/-- Gives a record that a logger has taken to all handlers, or else to what stands in for them. -/
def deliver (w : Wiring) (run : Text) (r : Record) : Wiring :=
  if ¬ w.journal.isOwn r.logger then w
  else if w.handlers = [] then
    if warning ≤ r.level then
      { w with journal := w.journal.writeLine .stderr (Journal.bareLine? r) }
    else w
  else { w with journal := w.handlers.foldl (handle run r) w.journal }

def emit (w : Wiring) (run : Text) (r : Record) : Wiring :=
  if w.journal.isEnabled r.logger r.level then w.deliver run r else w

def setLevel (w : Wiring) (level : Int) : Wiring :=
  { w with journal := { w.journal with threshold := level } }

def clearHandlers (w : Wiring) : Wiring := { w with handlers := [] }

def addHandler (w : Wiring) (h : Handler) : Wiring := { w with handlers := w.handlers ++ [h] }

/-- Sets the level, takes all handlers away, opens the new place and adds a handler for it. -/
def configure (w : Wiring) (run : Text) (seconds : Int) (level : Text) (destination : Option Text)
    (json : Bool) : Except Fault Unit × Wiring :=
  let threshold := levelOfName level
  let w := (w.setLevel threshold).clearHandlers
  match w.journal.openSink destination with
  | (.error fault, j) => (.error fault, { w with journal := j })
  | (.ok sink, j) =>
    let w := addHandler { w with journal := j } ⟨sink, threshold, json⟩
    (.ok (), w.emit run (ofNotice seconds
      (.logConfigured (Journal.destinationName destination) threshold json)))

def call (w : Wiring) (run : Text) (seconds : Int) (logger : Text) (level : Int) (message : Text)
    (fields : List (Text × Json)) : Except Fault Unit × Wiring :=
  let w := { w with journal := { w.journal with loggers := logger :: w.journal.loggers } }
  if w.journal.isEnabled logger level then
    match ofCall logger level message fields seconds with
    | .ok r => (.ok (), w.deliver run r)
    | .error fault => (.error fault, w)
  else (.ok (), w)

def use (w : Wiring) (u : Use) : Except Fault Unit × Wiring :=
  match u.kind with
  | .configure level destination json => w.configure u.run u.seconds level destination json
  | .call logger level message fields => w.call u.run u.seconds logger level message fields
  | .notice notice => (.ok (), w.emit u.run (ofNotice u.seconds notice))

def useAll (w : Wiring) (uses : List Use) : Wiring := uses.foldl (fun w u => (w.use u).2) w

/-! ### The handlers write what the log writes -/

variable {j : Journal}

theorem of_writeLine (j : Journal) (sink : Sink) (line : Option Text) :
    of (j.writeLine sink line) = { of j with journal := (of j).journal.writeLine sink line } := by
  cases line with
  | none => rfl
  | some text => cases sink <;> rfl

theorem of_deliver (j : Journal) (run : Text) (r : Record) :
    (of j).deliver run r = of (j.deliver run r) := by
  have hown : (of j).journal.isOwn r.logger = j.isOwn r.logger := rfl
  unfold deliver Journal.deliver
  rw [hown]
  split
  · rfl
  · cases hhandler : j.handler with
    | none =>
        have hnone : (of j).handlers = [] := by simp [of, hhandler]
        rw [if_pos hnone]
        simp only
        split
        · rw [of_writeLine]
        · rfl
    | some h =>
        have hone : (of j).handlers = [h] := by simp [of, hhandler]
        have hfold : (of j).handlers.foldl (handle run r) (of j).journal =
            handle run r (of j).journal h := by rw [hone, List.foldl_cons, List.foldl_nil]
        rw [if_neg (by simp [hone]), hfold, handle]
        simp only
        split
        · rw [of_writeLine]
        · rfl

theorem of_emit (j : Journal) (run : Text) (r : Record) :
    (of j).emit run r = of (j.emit run r) := by
  have henabled : (of j).journal.isEnabled r.logger r.level = j.isEnabled r.logger r.level := rfl
  unfold emit Journal.emit
  rw [henabled]
  split
  · exact of_deliver j run r
  · rfl

theorem of_of_handler_eq_none (h : j.handler = none) : of j = ⟨j, []⟩ := by
  cases j
  simp_all [of]

theorem of_of_handler_eq_some (h : j.handler = none) (handler : Handler) :
    of { j with handler := some handler } = ⟨j, [handler]⟩ := by
  cases j
  simp_all [of]

theorem of_configure (j : Journal) (run : Text) (seconds : Int) (level : Text)
    (destination : Option Text) (json : Bool) :
    (of j).configure run seconds level destination json =
      ((j.configure run seconds level destination json).1,
        of (j.configure run seconds level destination json).2) := by
  have hnone := (Journal.openSink_settings (j.cleared level) destination).2
  have hstart : (((of j).setLevel (levelOfName level)).clearHandlers).journal =
      j.cleared level := rfl
  simp only [configure, Journal.configure, hstart]
  rw [← Journal.cleared]
  generalize (j.cleared level).openSink destination = opened at hnone ⊢
  obtain ⟨result, k⟩ := opened
  cases result with
  | error fault => exact congrArg (Prod.mk _) (of_of_handler_eq_none hnone).symm
  | ok sink =>
      have hplaced := of_of_handler_eq_some hnone ⟨sink, levelOfName level, json⟩
      simp only
      exact congrArg (Prod.mk _) ((congrArg (emit · run _) hplaced).symm.trans (of_emit _ run _))

theorem of_call (j : Journal) (run : Text) (seconds : Int) (logger : Text) (level : Int)
    (message : Text) (fields : List (Text × Json)) :
    (of j).call run seconds logger level message fields =
      ((j.call run seconds logger level message fields).1,
        of (j.call run seconds logger level message fields).2) := by
  let known : Journal := { j with loggers := logger :: j.loggers }
  have henabled : (of known).journal.isEnabled logger level = known.isEnabled logger level := rfl
  have hcall : (of j).call run seconds logger level message fields =
      if (of known).journal.isEnabled logger level then
        match ofCall logger level message fields seconds with
        | .ok r => (.ok (), (of known).deliver run r)
        | .error fault => (.error fault, of known)
      else (.ok (), of known) := rfl
  have hcall' : j.call run seconds logger level message fields =
      if known.isEnabled logger level then
        match ofCall logger level message fields seconds with
        | .ok r => (.ok (), known.deliver run r)
        | .error fault => (.error fault, known)
      else (.ok (), known) := rfl
  rw [hcall, hcall', henabled]
  split
  · split
    · rw [of_deliver]
    · rfl
  · rfl

/-- With its handlers in a list, the log goes on as without. -/
theorem of_use (j : Journal) (u : Use) : (of j).use u = ((j.use u).1, of (j.use u).2) := by
  obtain ⟨run, seconds, kind⟩ := u
  cases kind with
  | configure level destination json => exact of_configure j run seconds level destination json
  | call logger level message fields => exact of_call j run seconds logger level message fields
  | notice notice =>
      exact congrArg (Prod.mk (Except.ok ())) (of_emit j run (ofNotice seconds notice))

theorem of_useAll (j : Journal) (uses : List Use) : (of j).useAll uses = of (j.useAll uses) := by
  induction uses generalizing j with
  | nil => rfl
  | cons u uses ih =>
      rw [useAll, List.foldl_cons, of_use]
      exact ih _

end Wiring

/-! ## Choosing again and again -/

def Use.Chooses (u : Use) : Prop :=
  ∃ level destination json, u.kind = .configure level destination json

/-- Whether the record of a use can be written: the clock reaches to its time, and no field hides
its message. -/
def Use.Writable (u : Use) : Prop :=
  u.seconds.natAbs ≤ 2 ^ 55 ∧
    match u.kind with
    | .call _ _ _ fields => ∀ field ∈ fields, field.1 ≠ "getMessage".toList
    | .configure _ _ _ | .notice _ => True

theorem Use.Writable.of_record {u : Use} (h : u.Writable) {r : Record} (hr : u.record? = some r) :
    r.Writable := by
  obtain ⟨run, seconds, kind⟩ := u
  obtain ⟨hseconds, hkind⟩ := h
  cases kind with
  | configure level destination json =>
      obtain rfl := Option.some.inj hr
      exact writable_ofNotice _ hseconds
  | call logger level message fields =>
      simp only [Use.record?] at hr
      cases hcall : ofCall logger level message fields seconds with
      | error fault =>
          rw [hcall] at hr
          cases hr
      | ok r' =>
          rw [hcall] at hr
          obtain rfl := Option.some.inj hr
          exact writable_ofCall hcall hseconds hkind
  | notice notice =>
      obtain rfl := Option.some.inj hr
      exact writable_ofNotice notice hseconds

theorem Delivery.exists_text (d : Delivery) (h : d.record.Writable) :
    ∃ text, d.text? = some text := by
  unfold text?
  split
  · next handler _ =>
    obtain ⟨text, htext, -⟩ := handler.exists_line h d.run
    exact ⟨text, htext⟩
  · obtain ⟨text, htext, -⟩ := exists_bareLine h
    exact ⟨text, htext⟩

theorem exists_use_of_mem_deliveries {host : Host} {threshold : Int} {before : Option Handler}
    {uses : List Use} {d : Delivery} (h : d ∈ deliveries host threshold before uses) :
    ∃ u ∈ uses, u.record? = some d.record := by
  induction uses generalizing before with
  | nil => simp [deliveries] at h
  | cons u uses ih =>
      rcases List.mem_append.1 h with h | h
      · obtain ⟨r, hr, rfl⟩ := List.mem_map.1 h
        exact ⟨u, List.mem_cons_self, by simpa using List.mem_of_mem_filter hr⟩
      · obtain ⟨u', hmem, hrecord⟩ := ih h
        exact ⟨u', List.mem_cons_of_mem _ hmem, hrecord⟩

namespace Journal

variable {j : Journal} {u : Use} {uses : List Use}

theorem isSome_handler_use (hu : j.Succeeds u) (h : u.Chooses ∨ j.handler.isSome) :
    (j.use u).2.handler.isSome := by
  obtain ⟨run, seconds, kind⟩ := u
  cases kind with
  | configure level destination json =>
      simp only [Succeeds, use, configure] at hu ⊢
      split at hu
      · cases hu
      · next sink k hopen =>
        simp only [report, List.foldl_cons, List.foldl_nil]
        rw [(emit_settings _ run _).2.1]
        rfl
  | call logger level message fields =>
      have hbefore : j.handler.isSome := h.resolve_left (by simp [Use.Chooses])
      cases hr : ofCall logger level message fields seconds with
      | error fault =>
          rw [use, call_of_error hr]
          exact hbefore
      | ok r =>
          rw [use, call_of_ok hr, (emit_settings _ run r).2.1]
          exact hbefore
  | notice notice =>
      have hbefore : j.handler.isSome := h.resolve_left (by simp [Use.Chooses])
      have hkept := (emit_settings j run (ofNotice seconds notice)).2.1
      exact (congrArg Option.isSome hkept).trans hbefore

theorem isSome_handler_useAll (huses : SucceedAll j uses)
    (h : (∃ u ∈ uses, u.Chooses) ∨ j.handler.isSome) : (j.useAll uses).handler.isSome := by
  induction uses generalizing j with
  | nil => exact h.resolve_left (by simp)
  | cons u uses ih =>
      obtain ⟨hu, huses⟩ := huses
      by_cases hlater : ∃ u ∈ uses, u.Chooses
      · exact ih huses (.inl hlater)
      · refine ih huses (.inr (isSome_handler_use hu ?_))
        rcases h with ⟨u', hmem, hchooses⟩ | h
        · rcases List.mem_cons.1 hmem with rfl | hmem
          · exact .inl hchooses
          · exact absurd ⟨u', hmem, hchooses⟩ hlater
        · exact .inr h

/-- Records go to what is in force. Let a log for which nothing has been chosen be used in any
order: level, place and form are chosen, successfully, loggers of the loader are called, and the
loader reports what it does. From the first choice on exactly one handler is installed, the one that was
chosen last. At the end standard output, standard error and every file hold what they did before,
and behind it, in order and each once, the records that were important enough for what had been
chosen last before them, each as the text that this writes. The records from before the first choice
are among them where they are serious: those stand on standard error as bare messages. -/
theorem useAll_written (hnew : j.handler = none) (hclosed : j.host.tree.Closed)
    (huses : SucceedAll j uses) (hwritable : ∀ u ∈ uses, u.Writable) :
    let k := j.useAll uses
    let ds := deliveries k.host j.threshold none uses
    ((∃ u ∈ uses, u.Chooses) → ∃ h, lastChosen k.host none uses = some h ∧
        (Wiring.of j).useAll uses = ⟨{ k with handler := none }, [h]⟩) ∧
      (∀ d ∈ ds, ∃ text, d.text? = some text) ∧ j.Adds ds k := by
  obtain ⟨-, hlast, hadds⟩ := useAll_adds hclosed (inForce_none hnew) huses
  refine ⟨fun hchooses => ?_, fun d hd => ?_, hadds⟩
  · obtain ⟨h, hh⟩ := Option.isSome_iff_exists.1 (isSome_handler_useAll huses (.inl hchooses))
    refine ⟨h, hlast.handler_eq.symm.trans hh, ?_⟩
    rw [Wiring.of_useAll, Wiring.of, hh, Option.toList_some]
  · obtain ⟨u, hu, hrecord⟩ := exists_use_of_mem_deliveries hd
    exact d.exists_text ((hwritable u hu).of_record hrecord)

def fresh : Journal := initial ⟨.posix, Tree.empty, some ['/']⟩

theorem closed_fresh : fresh.host.tree.Closed := by
  intro location name h
  rw [Tree.get?_of_ne_nil _ (by simp)] at h
  simp [fresh, initial, Tree.empty] at h

def moving : List Use :=
  [⟨['-'], 0, .configure "DEBUG".toList (some "/log/a".toList) true⟩,
    ⟨['r'], 1, .call "sourcevfs.driver".toList debug "first".toList []⟩,
    ⟨['r'], 2, .configure "WARNING".toList none false⟩,
    ⟨['r'], 3, .call "sourcevfs".toList info "second".toList []⟩]

theorem configure_fst (j : Journal) (run : Text) (seconds : Int) (level : Text)
    (destination : Option Text) (json : Bool) :
    (j.configure run seconds level destination json).1 =
      (fun _ => ()) <$> ((j.cleared level).openSink destination).1 := by
  simp only [configure]
  rw [← cleared]
  generalize (j.cleared level).openSink destination = opened
  obtain ⟨_ | _, k⟩ := opened <;> rfl

theorem openSink_moving :
    ((fresh.cleared "DEBUG".toList).openSink (some "/log/a".toList)).1 =
      .ok (.file ["log".toList, "a".toList]) := by
  have hname : destinationName (some "/log/a".toList) = "/log/a".toList := rfl
  have hhost : (fresh.cleared "DEBUG".toList).host = fresh.host := rfl
  have hparent : (Path.Plain.ofText "/log/a".toList).parent.toText = "/log".toList := by cbv
  have hmade : fresh.host.makeDirectory "/log".toList = .ok
      { fresh.host with tree := fresh.host.tree.set ["log".toList] (.directory false) } := by cbv
  rw [openSink, hname, if_neg (by decide), if_neg (by decide), openFile_eq, hhost,
    Host.makeDirectories, hparent, hmade]
  cbv

theorem useAll_written_moving :
    SucceedAll fresh moving ∧
      (∃ h, lastChosen (fresh.useAll moving).host none moving = some h ∧
        (Wiring.of fresh).useAll moving =
          ⟨{ fresh.useAll moving with handler := none }, [h]⟩) ∧
      fresh.Adds (deliveries (fresh.useAll moving).host silentThreshold none moving)
        (fresh.useAll moving) := by
  have hmoving : SucceedAll fresh moving := by
    have hstderr : ∀ k : Journal, (k.openSink none).1 = .ok .stderr := fun _ => rfl
    have hparts : ∀ p ∈ ["driver".toList], p ≠ [] ∧ '.' ∉ p := by decide
    refine ⟨?_, ?_, ?_, Hierarchy.isBelow_self _ _, trivial⟩
    · exact (configure_fst _ _ _ _ _ _).trans (congrArg _ openSink_moving)
    · exact Hierarchy.isBelow_dotted (by decide) _ hparts
    · exact (configure_fst _ _ _ _ _ _).trans (congrArg _ (hstderr _))
  have hwritable : ∀ u ∈ moving, u.Writable := by
    simp [moving, Use.Writable]
  obtain ⟨hone, -, hadds⟩ := useAll_written rfl closed_fresh hmoving hwritable
  exact ⟨hmoving, hone ⟨_, List.mem_cons_self, _, _, _, rfl⟩, hadds⟩

def hasty : List Use :=
  [⟨['-'], 0, .call "sourcevfs".toList 60 "early".toList []⟩,
    ⟨['-'], 0, .configure "CRITICAL".toList (some "stdout".toList) true⟩]

/-- A record from before the first choice appears on standard error, though nothing that is chosen
writes there. -/
theorem useAll_hasty :
    SucceedAll fresh hasty ∧ (∀ u ∈ hasty, u.Writable) ∧
      (fresh.useAll hasty).stderr = "early\n".toList ∧
      Delivery.written .stderr ((deliveries (fresh.useAll hasty).host fresh.threshold none
        hasty).filter (·.handler.isSome)) = [] := by
  have hstdout : ∀ k : Journal, (k.openSink (some "stdout".toList)).1 = .ok .stdout :=
    fun _ => rfl
  have hhasty : SucceedAll fresh hasty := by
    refine ⟨Hierarchy.isBelow_self _ _, ?_, trivial⟩
    exact (configure_fst _ _ _ _ _ _).trans (congrArg _ (hstdout _))
  have hds : ∀ host, deliveries host fresh.threshold none hasty =
      [⟨none, ['-'], ⟨"sourcevfs".toList, 60, "early".toList,
        [("component".toList, .str "sourcevfs".toList)], none, 0, 0, false⟩⟩] :=
    fun _ => rfl
  obtain ⟨-, -, hadds⟩ := useAll_adds closed_fresh (inForce_none rfl) hhasty
  refine ⟨hhasty, by simp [hasty, Use.Writable], ?_, ?_⟩
  · rw [hadds.stderr, hds]
    cbv
  · rw [hds]
    rfl

end Journal

end SourceLoader.Log
