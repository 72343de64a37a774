import Mathlib
import SourceLoader.Proofs.Log.Handlers

/-!
A choice that fails. The level is set and what wrote the records is taken away before the new place
is opened, and opening it is what fails. So nothing is left of what had been chosen: until something
is chosen again, serious records that reach the new level appear on standard error as bare messages,
and all others are lost.
-/

namespace SourceLoader.Log

theorem Use.chosen_of_not_chooses {u : Use} (hu : ¬ u.Chooses) (host : Host)
    (before : Option Handler) : u.chosen host before = before := by
  obtain ⟨run, seconds, kind⟩ := u
  cases kind with
  | configure level destination json => exact absurd ⟨level, destination, json, rfl⟩ hu
  | call | notice => rfl

theorem deliveries_eq_flatMap {uses : List Use} (huses : ∀ u ∈ uses, ¬ u.Chooses) (host : Host)
    (threshold : Int) (handler : Option Handler) :
    deliveries host threshold handler uses = uses.flatMap (·.deliveries threshold handler) := by
  induction uses with
  | nil => rfl
  | cons u uses ih =>
      obtain ⟨hu, huses⟩ := List.forall_mem_cons.1 huses
      rw [deliveries, Use.chosen_of_not_chooses hu, ih huses, List.flatMap_cons]

namespace Journal

variable {j k : Journal} {threshold : Int} {handler : Option Handler} {u : Use} {uses : List Use}

/-! ### Logs that come about in any way -/

/-- Whether a log writes by its own handler and at its own level. -/
def Settled (j : Journal) : Prop := InForce j.threshold j.handler j

theorem InForce.settled (h : InForce threshold handler j) : j.Settled := by
  obtain ⟨rfl, hthreshold, hnonneg, hheld⟩ := h
  refine ⟨rfl, ?_, hnonneg, hheld⟩
  cases hhandler : j.handler with
  | none => rfl
  | some handler => rwa [hhandler] at hthreshold

theorem settled_of_handler_eq_none (h : j.handler = none) : j.Settled := (inForce_none h).settled

variable {run level : Text} {seconds : Int} {destination : Option Text} {json : Bool}

/-- A failed choice leaves the new level and no handler, and it has written nothing. -/
theorem configure_leaves {fault : Fault} (hclosed : j.host.tree.Closed)
    (hfails : (j.configure run seconds level destination json).1 = .error fault) :
    let k := (j.configure run seconds level destination json).2
    InForce (levelOfName level) none k ∧ j.Follows k ∧ j.Adds [] k ∧ k.loggers = j.loggers := by
  obtain ⟨host, hgrown, ⟨fault', heq⟩ | ⟨sink, opened, heq, -, -⟩⟩ :=
    configure_cases hclosed run seconds level destination json
  · let left : Journal := { j.cleared level with host := host }
    have hforce : InForce left.threshold none left := inForce_none rfl
    obtain ⟨hfollows, hadds⟩ := follows_of_grownTo (k := left) hgrown rfl rfl rfl
    rw [heq]
    exact ⟨hforce, hfollows, hadds, rfl⟩
  · rw [heq] at hfails
    cases hfails

theorem call_of_foreign {logger message : Text} {importance : Int} {fields : List (Text × Json)}
    (hforeign : ¬ Hierarchy.isBelow Notice.rootLogger (logger :: j.loggers) logger = true) :
    (j.call run seconds logger importance message fields).2 =
      { j with loggers := logger :: j.loggers } := by
  cases hr : ofCall logger importance message fields seconds with
  | error fault => exact call_of_error hr
  | ok r =>
      let known : Journal := { j with loggers := logger :: j.loggers }
      have hlogger : ¬ known.isOwn r.logger = true := by
        rw [(logger_of_ofCall hr).1]
        exact hforeign
      rw [call_of_ok hr, emit, deliver, if_pos hlogger, ite_self]

/-- One step, whether it goes as it is asked for or not. -/
theorem settled_use (hclosed : j.host.tree.Closed) (h : j.Settled) (u : Use) :
    (j.use u).2.host.tree.Closed ∧ (j.use u).2.Settled := by
  have hleads : ∀ {threshold before}, Leads threshold before u j (j.use u).2 →
      (j.use u).2.host.tree.Closed ∧ (j.use u).2.Settled := by
    rintro threshold before ⟨handler, hforce, hfollows, -⟩
    exact ⟨hfollows.closed, hforce.settled⟩
  obtain ⟨run, seconds, kind⟩ := u
  cases kind with
  | configure level destination json =>
      cases hdone : (j.configure run seconds level destination json).1 with
      | ok done => exact hleads (leads_configure hclosed hdone : Leads 0 none _ _ _)
      | error fault =>
          obtain ⟨hforce, hfollows, -, -⟩ := configure_leaves hclosed hdone
          exact ⟨hfollows.closed, hforce.settled⟩
  | call logger importance message fields =>
      by_cases hown : Hierarchy.isBelow Notice.rootLogger (logger :: j.loggers) logger = true
      · exact hleads (leads_call hclosed h hown)
      · rw [use, call_of_foreign hown]
        exact ⟨hclosed, h.of_settings rfl rfl (.refl _)⟩
  | notice notice => exact hleads (leads_notice hclosed h notice)

theorem settled_useAll (hclosed : j.host.tree.Closed) (h : j.Settled) (uses : List Use) :
    (j.useAll uses).host.tree.Closed ∧ (j.useAll uses).Settled := by
  induction uses generalizing j with
  | nil => exact ⟨hclosed, h⟩
  | cons u uses ih =>
      obtain ⟨hclosed, h⟩ := settled_use hclosed h u
      exact ih hclosed h

/-! ### Where nothing is chosen, only the known loggers count -/

theorem loggers_use (hu : ¬ u.Chooses) (hloggers : k.loggers = j.loggers) :
    (k.use u).2.loggers = (j.use u).2.loggers := by
  obtain ⟨run, seconds, kind⟩ := u
  cases kind with
  | configure level destination json => exact absurd ⟨level, destination, json, rfl⟩ hu
  | call logger importance message fields =>
      have hknown : ∀ l : Journal, (l.call run seconds logger importance message fields).2.loggers =
          logger :: l.loggers := by
        intro l
        cases hr : ofCall logger importance message fields seconds with
        | error fault => rw [call_of_error hr]
        | ok r => rw [call_of_ok hr, (emit_settings _ run r).2.2.1]
      rw [use, use, hknown, hknown, hloggers]
  | notice notice =>
      have hkept : ∀ l : Journal, (l.report run seconds [notice]).loggers = l.loggers :=
        fun l => (emit_settings l run (ofNotice seconds notice)).2.2.1
      rw [use, use, hkept, hkept, hloggers]

theorem succeeds_of_loggers_eq (hu : ¬ u.Chooses) (hloggers : k.loggers = j.loggers)
    (h : j.Succeeds u) : k.Succeeds u := by
  obtain ⟨run, seconds, kind⟩ := u
  cases kind with
  | configure level destination json => exact absurd ⟨level, destination, json, rfl⟩ hu
  | call logger importance message fields =>
      rw [Succeeds] at h ⊢
      rwa [hloggers]
  | notice notice => trivial

theorem succeedAll_of_loggers_eq (huses : ∀ u ∈ uses, ¬ u.Chooses)
    (hloggers : k.loggers = j.loggers) (h : SucceedAll j uses) : SucceedAll k uses := by
  induction uses generalizing j k with
  | nil => trivial
  | cons u uses ih =>
      obtain ⟨hu, huses⟩ := List.forall_mem_cons.1 huses
      exact ⟨succeeds_of_loggers_eq hu hloggers h.1, ih huses (loggers_use hu hloggers) h.2⟩

theorem useAll_adds_of_not_chooses (hclosed : j.host.tree.Closed)
    (h : InForce threshold handler j) (huses : ∀ u ∈ uses, ¬ u.Chooses)
    (hsucceed : SucceedAll j uses) :
    j.Adds (uses.flatMap (·.deliveries threshold handler)) (j.useAll uses) := by
  obtain ⟨-, -, hadds⟩ := useAll_adds hclosed h hsucceed
  rwa [deliveries_eq_flatMap huses] at hadds

end Journal

/-! ### What a handler writes is not what stands in for it -/

namespace Delivery

variable {r : Record}

theorem written_own (d : Delivery) : written d.sink [d] = d.text?.getD [] := by
  rw [written_singleton, if_pos rfl]

theorem length_written_bare (hr : r.Writable) (run : Text) :
    (written .stderr [⟨none, run, r⟩]).length = r.bareLength := by
  have hown : written .stderr [⟨none, run, r⟩] = (Journal.bareLine? r).getD [] :=
    written_own ⟨none, run, r⟩
  obtain ⟨text, htext, hlength⟩ := exists_bareLine hr
  rw [hown, htext, Option.getD_some, hlength]

theorem lt_length_written (hr : r.Writable) (h : Handler) (run : Text) :
    r.bareLength < (written h.sink [⟨some h, run, r⟩]).length := by
  have hown : written h.sink [⟨some h, run, r⟩] = (h.line? (r.stamp run)).getD [] :=
    written_own ⟨some h, run, r⟩
  obtain ⟨text, htext, hlength⟩ := h.exists_line hr run
  rwa [hown, htext, Option.getD_some]

/-- With and without a handler a record is never written in the same way. -/
theorem written_ne_bare (hr : r.Writable) (h : Handler) (run : Text) :
    written .stderr [⟨some h, run, r⟩] ≠ written .stderr [⟨none, run, r⟩] := by
  intro hsame
  have hbare := length_written_bare hr run
  have hlength := lt_length_written hr h run
  rw [← hsame] at hbare
  by_cases hsink : h.sink = .stderr
  · rw [hsink] at hlength
    omega
  · have hempty : written .stderr [⟨some h, run, r⟩] = [] :=
      (written_singleton _ _).trans (if_neg hsink)
    rw [hempty, List.length_nil, Record.bareLength] at hbare
    omega

theorem exists_written_ne_nil (hr : r.Writable) (handler : Option Handler) (run : Text) :
    ∃ sink, written sink [⟨handler, run, r⟩] ≠ [] := by
  cases handler with
  | none =>
      refine ⟨.stderr, List.ne_nil_of_length_pos ?_⟩
      rw [length_written_bare hr, Record.bareLength]
      omega
  | some h =>
      have hlength := lt_length_written hr h run
      exact ⟨h.sink, List.ne_nil_of_length_pos (by omega)⟩

end Delivery

/-- A use writes the same, by what has been chosen and without a handler, exactly if its record is
written in neither case, or in both and nothing had been chosen. -/
theorem Use.written_same_iff {u : Use} {r : Record} (hr : u.record? = some r)
    (hwritable : r.Writable) {threshold threshold' : Int} {handler : Option Handler} :
    (∀ sink, Delivery.written sink (u.deliveries threshold handler) =
        Delivery.written sink (u.deliveries threshold' none)) ↔
      reaches threshold handler r.level = reaches threshold' none r.level ∧
        (reaches threshold' none r.level = true → handler = none) := by
  rw [Journal.deliveries_of_record hr, Journal.deliveries_of_record hr]
  cases hbefore : reaches threshold handler r.level <;>
    cases hafter : reaches threshold' none r.level
  case false.false => simp
  case true.false =>
      obtain ⟨sink, hsink⟩ := Delivery.exists_written_ne_nil hwritable handler u.run
      simpa using ⟨sink, hsink⟩
  case false.true =>
      obtain ⟨sink, hsink⟩ := Delivery.exists_written_ne_nil hwritable none u.run
      simpa using ⟨sink, fun hsame => hsink hsame⟩
  case true.true =>
      cases handler with
      | none => simp
      | some h => simpa using ⟨.stderr, Delivery.written_ne_bare hwritable h u.run⟩

namespace Journal

/-- A failed choice silences the log. Let a log for which nothing has been chosen be used in any
way, and let a choice fail then. Afterwards the logger has no handler. Until something is chosen
again, calls and reports add what they come to without one: the bare messages of those of their
records that are serious and reach the new level. Had the choice not been made, they would add what
they come to by what was in force before it. For one record the two are the same exactly if it is
written in neither case, or in both and no handler was in force before. -/
theorem configure_failed {start : Journal} (hnew : start.handler = none)
    (hclosed : start.host.tree.Closed) {earlier later : List Use} {run level : Text}
    {seconds : Int} {destination : Option Text} {json : Bool} {fault : Fault}
    (hfails : ((start.useAll earlier).configure run seconds level destination json).1 =
      .error fault)
    (hlater : ∀ u ∈ later, ¬ u.Chooses) (hsucceed : SucceedAll (start.useAll earlier) later) :
    let j := start.useAll earlier
    let k := (j.configure run seconds level destination json).2
    ((Wiring.of j).configure run seconds level destination json).2.handlers = [] ∧
      j.Adds [] k ∧
      k.Adds (later.flatMap (·.deliveries (levelOfName level) none)) (k.useAll later) ∧
      j.Adds (later.flatMap (·.deliveries j.threshold j.handler)) (j.useAll later) ∧
      ∀ u ∈ later, ∀ r, u.record? = some r → u.Writable →
        ((∀ sink, Delivery.written sink (u.deliveries j.threshold j.handler) =
            Delivery.written sink (u.deliveries (levelOfName level) none)) ↔
          reaches j.threshold j.handler r.level = reaches (levelOfName level) none r.level ∧
            (reaches (levelOfName level) none r.level = true → j.handler = none)) := by
  intro j k
  obtain ⟨hj, hsettled⟩ := settled_useAll hclosed (settled_of_handler_eq_none hnew) earlier
  obtain ⟨hforce, hfollows, hnothing, hloggers⟩ := configure_leaves hj hfails
  have hsucceed' : SucceedAll k later := succeedAll_of_loggers_eq hlater hloggers hsucceed
  refine ⟨?_, hnothing, ?_, ?_, ?_⟩
  · rw [Wiring.of_configure]
    exact congrArg Option.toList hforce.handler_eq
  · exact useAll_adds_of_not_chooses hfollows.closed hforce hlater hsucceed'
  · exact useAll_adds_of_not_chooses hj hsettled hlater hsucceed
  · exact fun u _ r hr hwritable => Use.written_same_iff hr (hwritable.of_record hr)

def blocked : Journal :=
  initial ⟨.posix, Tree.empty.set ["f".toList] (.file [] false), some ['/']⟩

theorem closed_blocked : blocked.host.tree.Closed :=
  (Tree.grown_set closed_fresh (rfl : fresh.host.tree.get? [] = some (.directory false)) rfl
    rfl).closed

def toStdout : Use := ⟨['-'], 0, .configure "INFO".toList (some "stdout".toList) true⟩

def belowFile : Use := ⟨['-'], 0, .configure "DEBUG".toList (some "/f/x.log".toList) true⟩

def saying : Use := ⟨['-'], 0, .call "sourcevfs".toList info "m".toList []⟩

theorem useAll_toStdout :
    (blocked.useAll [toStdout]).host = blocked.host ∧
      (blocked.useAll [toStdout]).handler = some ⟨.stdout, info, true⟩ := by
  let placed : Journal :=
    { blocked.cleared "INFO".toList with handler := some ⟨.stdout, info, true⟩ }
  let notice : Notice := .logConfigured "stdout".toList info true
  have hforce : InForce 0 placed.handler placed := by
    refine ⟨rfl, rfl, ?_, ?_⟩
    · rintro _ ⟨rfl⟩
      decide
    · rintro _ _ ⟨rfl⟩ hsink
      cases hsink
  have hown : placed.isOwn (ofNotice 0 notice).logger = true := placed.isOwn_notice notice
  have huse : blocked.useAll [toStdout] = placed.emit ['-'] (ofNotice 0 notice) := rfl
  have hhost : ∀ text, (placed.writeLine .stdout text).host = blocked.host := by
    rintro (_ | text) <;> rfl
  refine ⟨?_, huse ▸ (emit_settings placed _ _).2.1⟩
  rw [huse, hforce.emit_eq hown]
  split
  · exact hhost _
  · rfl

theorem use_belowFile :
    ((blocked.useAll [toStdout]).use belowFile).1 =
      .error (.os ⟨.alreadyExists, some "/f".toList⟩) := by
  have hhost : ((blocked.useAll [toStdout]).cleared "DEBUG".toList).host = blocked.host :=
    useAll_toStdout.1
  have hname : destinationName (some "/f/x.log".toList) = "/f/x.log".toList := rfl
  have hparent : (Path.Plain.ofText "/f/x.log".toList).parent.toText = "/f".toList := by cbv
  have hmade : blocked.host.makeDirectory "/f".toList =
      .error (.os ⟨.alreadyExists, some "/f".toList⟩) := by cbv
  have haccept : blocked.host.acceptDirectory "/f".toList
      (.os ⟨.alreadyExists, some "/f".toList⟩) =
        (.error (.os ⟨.alreadyExists, some "/f".toList⟩), blocked.host) := by cbv
  have huse : (blocked.useAll [toStdout]).use belowFile =
      (blocked.useAll [toStdout]).configure ['-'] 0 "DEBUG".toList (some "/f/x.log".toList) true :=
    rfl
  rw [huse, configure_fst, openSink, hname, if_neg (by decide), if_neg (by decide), openFile_eq,
    hhost, Host.makeDirectories, hparent, hmade]
  simp only [haccept]
  rfl

theorem succeeds_saying (j : Journal) : SucceedAll j [saying] :=
  ⟨Hierarchy.isBelow_self _ _, trivial⟩

def sayingLine : Text :=
  "\x7b\"component\": \"sourcevfs\", \"level\": \"INFO\", \"message\": \"m\", ".toList ++
    "\"run_id\": \"-\", \"timestamp\": \"1970-01-01 00:00:00\"\x7d\n".toList

theorem written_saying :
    Delivery.written .stdout (saying.deliveries info (some ⟨.stdout, info, true⟩)) =
      sayingLine := by cbv

theorem not_chooses_saying : ∀ u ∈ [saying], ¬ u.Chooses := by
  simp [saying, Use.Chooses]

theorem configure_failed_below_file :
    let j := blocked.useAll [toStdout]
    let k := (j.configure ['-'] 0 "DEBUG".toList (some "/f/x.log".toList) true).2
    (j.configure ['-'] 0 "DEBUG".toList (some "/f/x.log".toList) true).1 =
        .error (.os ⟨.alreadyExists, some "/f".toList⟩) ∧
      k.Adds ([saying].flatMap (·.deliveries debug none)) (k.useAll [saying]) ∧
      j.Adds ([saying].flatMap (·.deliveries j.threshold j.handler)) (j.useAll [saying]) := by
  have hfails : ((blocked.useAll [toStdout]).configure ['-'] 0 "DEBUG".toList
      (some "/f/x.log".toList) true).1 = .error (.os ⟨.alreadyExists, some "/f".toList⟩) :=
    use_belowFile
  obtain ⟨-, -, hwith, hwithout, -⟩ := configure_failed rfl closed_blocked hfails
    not_chooses_saying (succeeds_saying _)
  exact ⟨hfails, hwith, hwithout⟩

/-- With the failed choice the record is lost, and without it the record is written. -/
theorem configure_failed_silences :
    let j := blocked.useAll [toStdout]
    let k := (j.use belowFile).2
    (j.use belowFile).1 = .error (.os ⟨.alreadyExists, some "/f".toList⟩) ∧
      j.handler = some ⟨.stdout, info, true⟩ ∧ k.handler = none ∧
      (j.useAll [saying]).stdout = j.stdout ++ sayingLine ∧
      (k.useAll [saying]).stdout = j.stdout ∧ (k.useAll [saying]).stderr = j.stderr := by
  intro j k
  have hhandler : j.handler = some ⟨.stdout, info, true⟩ := useAll_toStdout.2
  obtain ⟨hclosed, hsettled⟩ := settled_useAll closed_blocked (settled_of_handler_eq_none rfl)
    [toStdout]
  obtain ⟨hforce, hfollows, hnothing, -⟩ := configure_leaves hclosed use_belowFile
  have hwithout := useAll_adds_of_not_chooses hclosed hsettled not_chooses_saying
    (succeeds_saying _)
  have hwith := useAll_adds_of_not_chooses hfollows.closed hforce not_chooses_saying
    (succeeds_saying _)
  have hlost : [saying].flatMap (·.deliveries (levelOfName "DEBUG".toList) none) = [] := rfl
  have hkept : [saying].flatMap (·.deliveries j.threshold j.handler) =
      saying.deliveries info (some ⟨.stdout, info, true⟩) := by
    rw [hhandler]
    rfl
  refine ⟨use_belowFile, hhandler, hforce.handler_eq, ?_, ?_, ?_⟩
  · rw [← written_saying, ← hkept]
    exact hwithout.stdout
  · have hstdout := (hnothing.trans hwith).stdout
    rwa [hlost, List.append_nil, Delivery.written_nil, List.append_nil] at hstdout
  · have hstderr := (hnothing.trans hwith).stderr
    rwa [hlost, List.append_nil, Delivery.written_nil, List.append_nil] at hstderr

end Journal

end SourceLoader.Log
