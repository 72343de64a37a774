import Mathlib
import SourceLoader.Proofs.Host.Growth
import SourceLoader.Proofs.Log.Report
import SourceLoader.Proofs.Log.Writable

/-!
Where records end up. Of the uses that are made of a log, those of its loggers make a record each,
which is written if it is important enough for what was chosen last. All that the uses write to a
stream or a file comes behind what was there, and it is what the records of that time come to.
-/

namespace SourceLoader.Log

/-! ### What is asked of a log -/

inductive Use.Kind
  | configure (level : Text) (destination : Option Text) (json : Bool)
  | call (logger : Text) (level : Int) (message : Text) (fields : List (Text × Json))
  | notice (notice : Notice)

/-- Something that is asked of a log, with the run that is open and the time it is. -/
structure Use where
  run : Text
  seconds : Int
  kind : Use.Kind

/-- The record that a use makes; a call that is refused makes none. -/
def Use.record? (u : Use) : Option Record :=
  match u.kind with
  | .configure level destination json =>
    some (ofNotice u.seconds
      (.logConfigured (Journal.destinationName destination) (levelOfName level) json))
  | .call logger level message fields => (ofCall logger level message fields u.seconds).toOption
  | .notice notice => some (ofNotice u.seconds notice)

def logPath (host : Host) (name : Text) : Except Fault Text :=
  let path := (Path.Plain.ofText name).toText
  if Path.isAbsolute path then .ok (Path.normalize path)
  else (Path.absolute · path) <$> host.askWorkDir

/-- The stream that a destination names, or the file that it leads to. -/
def sinkOf? (host : Host) (destination : Option Text) : Option Sink :=
  let name := Journal.destinationName destination
  if name.lower = "stderr".toList then some .stderr
  else if name.lower = "stdout".toList then some .stdout
  else
    match logPath host name with
    | .ok path =>
      match host.lookup true path with
      | .ok (.existing location) => some (.file location)
      | _ => none
    | .error _ => none

/-- What writes the records after a use: what was chosen by it, or what wrote them before. -/
def Use.chosen (host : Host) (u : Use) (before : Option Handler) : Option Handler :=
  match u.kind with
  | .configure level destination json =>
    (sinkOf? host destination).map (⟨·, levelOfName level, json⟩)
  | .call _ _ _ _ | .notice _ => before

/-- Whether a record of this level is written: by a handler from its level on, where zero leaves it
to the default, and without one if it reaches the level of the loggers and is serious. -/
def reaches (threshold : Int) (handler : Option Handler) (level : Int) : Bool :=
  match handler with
  | some h => (if h.level = 0 then warning else h.level) ≤ level
  | none => max threshold warning ≤ level

theorem reaches_some_iff {threshold level : Int} {h : Handler} :
    reaches threshold (some h) level = true ↔
      (if h.level = 0 then warning else h.level) ≤ level := by
  simp [reaches]

theorem reaches_none_iff {threshold level : Int} :
    reaches threshold none level = true ↔ threshold ≤ level ∧ warning ≤ level := by
  simp [reaches]

/-- A record that is written, and what writes it. Where nothing has been chosen, it is written on
standard error as a bare message. -/
structure Delivery where
  handler : Option Handler
  run : Text
  record : Record

namespace Delivery

def sink (d : Delivery) : Sink :=
  match d.handler with
  | some h => h.sink
  | none => .stderr

def text? (d : Delivery) : Option Text :=
  match d.handler with
  | some h => h.line? (d.record.stamp d.run)
  | none => Journal.bareLine? d.record

/-- All that deliveries write to one sink. -/
def written (sink : Sink) (deliveries : List Delivery) : Text :=
  (deliveries.filter (·.sink = sink)).flatMap fun d => d.text?.getD []

@[simp] theorem written_nil (sink : Sink) : written sink [] = [] := rfl

@[simp] theorem written_append (sink : Sink) (ds ds' : List Delivery) :
    written sink (ds ++ ds') = written sink ds ++ written sink ds' := by
  simp [written]

theorem written_singleton (sink : Sink) (d : Delivery) :
    written sink [d] = if d.sink = sink then d.text?.getD [] else [] := by
  by_cases h : d.sink = sink <;> simp [written, h]

end Delivery

def Use.deliveries (u : Use) (threshold : Int) (handler : Option Handler) : List Delivery :=
  (u.record?.toList.filter fun r => reaches threshold handler r.level).map (⟨handler, u.run, ·⟩)

/-- The records that are written of uses, each by what was chosen last before it. -/
def deliveries (host : Host) (threshold : Int) : Option Handler → List Use → List Delivery
  | _, [] => []
  | before, u :: uses =>
    let handler := u.chosen host before
    u.deliveries threshold handler ++ deliveries host threshold handler uses

namespace Journal

def use (j : Journal) (u : Use) : Except Fault Unit × Journal :=
  match u.kind with
  | .configure level destination json => j.configure u.run u.seconds level destination json
  | .call logger level message fields => j.call u.run u.seconds logger level message fields
  | .notice notice => (.ok (), j.report u.run u.seconds [notice])

def useAll (j : Journal) (uses : List Use) : Journal := uses.foldl (fun j u => (j.use u).2) j

/-! ### What one record adds -/

variable {j k l : Journal} {threshold : Int} {handler : Option Handler} {r : Record}

/-- Whether one log comes about from the other on a host where nothing is taken away. -/
structure Follows (j k : Journal) : Prop where
  host_eq : k.host = { j.host with tree := k.host.tree }
  closed : k.host.tree.Closed
  keeps : j.host.tree.Keeps k.host.tree

theorem Follows.refl (h : j.host.tree.Closed) : j.Follows j := ⟨rfl, h, .refl _⟩

theorem Follows.trans (h : j.Follows k) (h' : k.Follows l) : j.Follows l :=
  ⟨h'.host_eq.trans (by rw [h.host_eq]), h'.closed, h.keeps.trans h'.keeps⟩

/-- Whether the streams and the files of one log hold what those of the other do, and what the
deliveries write behind it. -/
structure Adds (j : Journal) (ds : List Delivery) (k : Journal) : Prop where
  stdout : k.stdout = j.stdout ++ Delivery.written .stdout ds
  stderr : k.stderr = j.stderr ++ Delivery.written .stderr ds
  files : ∀ location, k.host.tree.bytesAt location =
    j.host.tree.bytesAt location ++ Text.Utf8.encode (Delivery.written (.file location) ds)

theorem Adds.refl (j : Journal) : j.Adds [] j := ⟨by simp, by simp, by simp⟩

theorem Adds.trans {ds ds' : List Delivery} (h : j.Adds ds k) (h' : k.Adds ds' l) :
    j.Adds (ds ++ ds') l :=
  ⟨by simp [h.stdout, h'.stdout], by simp [h.stderr, h'.stderr],
    fun location => by simp [h.files, h'.files]⟩

/-- Whether a log writes by what has been chosen: by the handler, at whose level its loggers stand
and whose file is there, or else by none, with its loggers at this level. -/
structure InForce (threshold : Int) (handler : Option Handler) (j : Journal) : Prop where
  handler_eq : j.handler = handler
  threshold_eq : j.threshold = handler.elim threshold Handler.level
  nonneg : ∀ h, handler = some h → 0 ≤ h.level
  held : ∀ h location, handler = some h → h.sink = .file location → j.host.tree.Holds location

theorem inForce_none (h : j.handler = none) : InForce j.threshold none j :=
  ⟨h, rfl, by simp, by simp⟩

theorem InForce.of_settings (h : InForce threshold handler j) (hhandler : k.handler = j.handler)
    (hthreshold : k.threshold = j.threshold) (hkeeps : j.host.tree.Keeps k.host.tree) :
    InForce threshold handler k :=
  ⟨hhandler.trans h.handler_eq, hthreshold.trans h.threshold_eq, h.nonneg,
    fun h' location hh hsink => hkeeps.holds (h.held h' location hh hsink)⟩

theorem writeLine_adds (hclosed : j.host.tree.Closed) (d : Delivery)
    (hheld : ∀ location, d.sink = .file location → j.host.tree.Holds location) :
    j.Follows (j.writeLine d.sink d.text?) ∧ j.Adds [d] (j.writeLine d.sink d.text?) := by
  have hwritten : ∀ sink, Delivery.written sink [d] =
      if d.sink = sink then d.text?.getD [] else [] := fun sink => Delivery.written_singleton sink d
  cases htext : d.text? with
  | none =>
      refine ⟨.refl hclosed, ?_, ?_, fun location => ?_⟩ <;> simp [hwritten, htext, writeLine]
  | some text =>
      cases hsink : d.sink with
      | stdout =>
          refine ⟨⟨rfl, hclosed, .refl _⟩, ?_, ?_, fun location => ?_⟩ <;>
            simp [hwritten, htext, hsink, writeLine, write]
      | stderr =>
          refine ⟨⟨rfl, hclosed, .refl _⟩, ?_, ?_, fun location => ?_⟩ <;>
            simp [hwritten, htext, hsink, writeLine, write]
      | file place =>
          have hplace := hheld place hsink
          refine ⟨⟨rfl, Tree.closed_append hplace hclosed _, Tree.keeps_append hplace _⟩, ?_, ?_,
            fun location => ?_⟩
          · simp [hwritten, hsink, writeLine, write]
          · simp [hwritten, hsink, writeLine, write]
          · simp only [writeLine, write, Tree.bytesAt_append hplace, hwritten, hsink, htext,
              Option.getD_some, Sink.file.injEq]
            by_cases hsame : place = location
            · simp [hsame]
            · simp [hsame, Ne.symm hsame]

/-- A record of the loader's own loggers is written by what is in force, if it reaches that. -/
theorem InForce.emit_eq (h : InForce threshold handler j) (hown : j.isOwn r.logger = true)
    (run : Text) :
    j.emit run r =
      if reaches threshold handler r.level then
        j.writeLine (Delivery.sink ⟨handler, run, r⟩) (Delivery.text? ⟨handler, run, r⟩)
      else j := by
  obtain ⟨hhandler, hthreshold, hnonneg, -⟩ := h
  have hdeliver : j.deliver run r =
      match j.handler with
      | some h => if h.level ≤ r.level then j.writeLine h.sink (h.line? (r.stamp run)) else j
      | none => if warning ≤ r.level then j.writeLine .stderr (bareLine? r) else j := by
    unfold deliver
    exact if_neg (by simp [hown])
  -- Logger and handler both ask for the level, and `reaches` asks once.
  cases handler with
  | some handler =>
      have hlevel := hnonneg handler rfl
      have hboth : j.isEnabled r.logger r.level = true ∧ handler.level ≤ r.level ↔
          reaches threshold (some handler) r.level = true := by
        rw [reaches_some_iff, isEnabled_own_iff hown, hthreshold, Option.elim_some, warning]
        split <;> omega
      simp only [emit, hdeliver, hhandler]
      rw [← ite_and]
      exact if_congr hboth rfl rfl
  | none =>
      have hboth : j.isEnabled r.logger r.level = true ∧ warning ≤ r.level ↔
          reaches threshold none r.level = true := by
        rw [reaches_none_iff, isEnabled_own_iff hown, hthreshold, Option.elim_none, warning]
        split <;> omega
      simp only [emit, hdeliver, hhandler]
      rw [← ite_and]
      exact if_congr hboth rfl rfl

theorem InForce.emit_adds (hclosed : j.host.tree.Closed) (h : InForce threshold handler j)
    (hown : j.isOwn r.logger = true) (run : Text) :
    InForce threshold handler (j.emit run r) ∧ j.Follows (j.emit run r) ∧
      j.Adds (if reaches threshold handler r.level then [⟨handler, run, r⟩] else [])
        (j.emit run r) := by
  rw [h.emit_eq hown]
  split
  · have hheld : ∀ location, Delivery.sink ⟨handler, run, r⟩ = .file location →
        j.host.tree.Holds location := by
      intro location hsink
      cases handler with
      | some handler => exact h.held handler location rfl hsink
      | none => cases hsink
    obtain ⟨hfollows, hadds⟩ := writeLine_adds hclosed ⟨handler, run, r⟩ hheld
    obtain ⟨hthreshold, hhandler, -⟩ := j.writeLine_settings (Delivery.sink ⟨handler, run, r⟩)
      (Delivery.text? ⟨handler, run, r⟩)
    exact ⟨h.of_settings hhandler hthreshold hfollows.keeps, hfollows, hadds⟩
  · exact ⟨h, .refl hclosed, .refl j⟩

/-! ### What is chosen -/

/-- Opening a log file in three steps, of which the first may change the host and fail as well. -/
theorem openFile_eq (j : Journal) (name : Text) :
    j.openFile name =
      let (made, host) := j.host.makeDirectories (Path.Plain.ofText name).parent
      match made >>= fun _ => logPath host name >>= fun path => (path, ·) <$> host.openLog path with
      | .error fault => (.error fault, { j with host := host })
      | .ok (path, after, location) =>
        (.ok (.file location),
          { j with
            host := after
            opened := if (path, location) ∈ j.opened then j.opened
              else j.opened ++ [(path, location)] }) := by
  simp only [openFile, logPath]
  generalize j.host.makeDirectories (Path.Plain.ofText name).parent = result
  obtain ⟨made, host⟩ := result
  cases made with
  | error fault => rfl
  | ok done =>
      cases Path.isAbsolute (Path.Plain.ofText name).toText with
      | true =>
          simp only [if_true, bind, Except.bind]
          cases host.openLog (Path.normalize (Path.Plain.ofText name).toText) <;> rfl
      | false =>
          simp only [Bool.false_eq_true, if_false, bind, Except.bind]
          cases host.askWorkDir with
          | error fault => rfl
          | ok cwd =>
              simp only [Functor.map, Except.map]
              cases host.openLog (Path.absolute cwd (Path.Plain.ofText name).toText) <;> rfl

theorem openFile_cases (hclosed : j.host.tree.Closed) (name : Text) :
    ∃ host, j.host.GrownTo host ∧
      ((∃ fault, j.openFile name = (.error fault, { j with host := host })) ∨
        ∃ path location opened,
          j.openFile name =
            (.ok (.file location), { j with host := host, opened := opened }) ∧
          logPath host name = .ok path ∧ host.lookup true path = .ok (.existing location) ∧
          host.tree.Holds location) := by
  have hmade := Host.makeDirectories_grownTo hclosed (Path.Plain.ofText name).parent
  rw [openFile_eq]
  generalize j.host.makeDirectories (Path.Plain.ofText name).parent = result at hmade ⊢
  obtain ⟨made, host⟩ := result
  have hhost : host.tree.Closed := by
    obtain ⟨tree', hhost, hgrown⟩ := hmade
    simp only at hhost
    rw [hhost]
    exact hgrown.closed
  cases made with
  | error fault => exact ⟨host, hmade, .inl ⟨fault, rfl⟩⟩
  | ok done =>
      simp only [bind, Except.bind]
      cases hpath : logPath host name with
      | error fault => exact ⟨host, hmade, .inl ⟨fault, rfl⟩⟩
      | ok path =>
          simp only
          cases hopen : host.openLog path with
          | error fault => exact ⟨host, hmade, .inl ⟨fault, rfl⟩⟩
          | ok opened =>
              obtain ⟨after, location⟩ := opened
              obtain ⟨hgrown, hholds, hlookup⟩ := Host.openLog_grownTo hhost hopen
              -- Opening changes the tree alone, so the log file still has this path.
              have hpath' : logPath after name = .ok path := by
                obtain ⟨tree', rfl, -⟩ := hgrown
                exact hpath
              exact ⟨after, hmade.trans hgrown,
                .inr ⟨path, location, _, rfl, hpath', hlookup, hholds⟩⟩

theorem openSink_settings (j : Journal) (destination : Option Text) :
    (j.openSink destination).2.threshold = j.threshold ∧
      (j.openSink destination).2.handler = j.handler := by
  unfold openSink
  dsimp only
  split
  · exact ⟨rfl, rfl⟩
  · split
    · exact ⟨rfl, rfl⟩
    · rw [openFile_eq]
      dsimp only
      split <;> exact ⟨rfl, rfl⟩

theorem openSink_cases (hclosed : j.host.tree.Closed) (destination : Option Text) :
    ∃ host, j.host.GrownTo host ∧
      ((∃ fault, j.openSink destination = (.error fault, { j with host := host })) ∨
        ∃ sink opened,
          j.openSink destination = (.ok sink, { j with host := host, opened := opened }) ∧
          sinkOf? host destination = some sink ∧
          ∀ location, sink = .file location → host.tree.Holds location) := by
  by_cases hstderr : (destinationName destination).lower = "stderr".toList
  · exact ⟨j.host, .refl hclosed, .inr ⟨.stderr, j.opened, by rw [openSink, if_pos hstderr],
      by rw [sinkOf?, if_pos hstderr], fun _ => Sink.noConfusion⟩⟩
  by_cases hstdout : (destinationName destination).lower = "stdout".toList
  · exact ⟨j.host, .refl hclosed, .inr ⟨.stdout, j.opened,
      by rw [openSink, if_neg hstderr, if_pos hstdout],
      by rw [sinkOf?, if_neg hstderr, if_pos hstdout], fun _ => Sink.noConfusion⟩⟩
  rw [openSink, if_neg hstderr, if_neg hstdout]
  obtain ⟨host, hgrown, hfails | ⟨path, location, opened, hopen, hpath, hlookup, hholds⟩⟩ :=
    openFile_cases hclosed (destinationName destination)
  · exact ⟨host, hgrown, .inl hfails⟩
  · refine ⟨host, hgrown, .inr ⟨.file location, opened, hopen, ?_, ?_⟩⟩
    · rw [sinkOf?, if_neg hstderr, if_neg hstdout, hpath]
      simp only [hlookup]
    · rintro place hsame
      rwa [← Sink.file.inj hsame]

theorem Follows.sinkOf?_eq (h : j.Follows k) {destination : Option Text} {sink : Sink}
    (hsink : sinkOf? j.host destination = some sink) :
    sinkOf? k.host destination = some sink := by
  rw [h.host_eq]
  by_cases hstderr : (destinationName destination).lower = "stderr".toList
  · rw [sinkOf?, if_pos hstderr] at hsink ⊢
    exact hsink
  by_cases hstdout : (destinationName destination).lower = "stdout".toList
  · rw [sinkOf?, if_neg hstderr, if_pos hstdout] at hsink ⊢
    exact hsink
  rw [sinkOf?, if_neg hstderr, if_neg hstdout] at hsink ⊢
  split at hsink
  · next path hpath =>
    split at hsink
    · next location hlookup =>
      have hpath' : logPath { j.host with tree := k.host.tree } (destinationName destination) =
          .ok path := hpath
      have hlookup' := Host.lookup_of_keeps h.keeps (fun _ _ hfree => Place.noConfusion hfree)
        hlookup
      rw [hpath']
      simp only [hlookup']
      exact hsink
    · cases hsink
  · cases hsink

def cleared (j : Journal) (level : Text) : Journal :=
  { j with threshold := levelOfName level, handler := none }

/-- A choice either fails, and then nothing has been chosen, or puts what writes in its place and
reports itself. -/
theorem configure_cases (hclosed : j.host.tree.Closed) (run : Text) (seconds : Int) (level : Text)
    (destination : Option Text) (json : Bool) :
    ∃ host, j.host.GrownTo host ∧
      ((∃ fault, j.configure run seconds level destination json =
          (.error fault, { j.cleared level with host := host })) ∨
        ∃ sink opened, j.configure run seconds level destination json =
            (.ok (), emit { j.cleared level with
                host := host
                handler := some ⟨sink, levelOfName level, json⟩
                opened := opened } run
              (ofNotice seconds
                (.logConfigured (destinationName destination) (levelOfName level) json))) ∧
          sinkOf? host destination = some sink ∧
          ∀ location, sink = .file location → host.tree.Holds location) := by
  obtain ⟨host, hgrown, ⟨fault, hfails⟩ | ⟨sink, opened, hopen, hsink, hheld⟩⟩ :=
    openSink_cases (j := j.cleared level) hclosed destination
  · refine ⟨host, hgrown, .inl ⟨fault, ?_⟩⟩
    simp only [configure]
    rw [← cleared, hfails]
  · refine ⟨host, hgrown, .inr ⟨sink, opened, ?_, hsink, hheld⟩⟩
    simp only [configure]
    rw [← cleared, hopen]
    rfl

/-! ### What uses add -/

theorem deliveries_of_record {u : Use} (h : u.record? = some r) :
    u.deliveries threshold handler =
      if reaches threshold handler r.level then [⟨handler, u.run, r⟩] else [] := by
  rw [Use.deliveries, h, Option.toList_some]
  cases hreaches : reaches threshold handler r.level with
  | true =>
      rw [List.filter_cons_of_pos (by simpa using hreaches), if_pos rfl, List.filter_nil,
        List.map_singleton]
  | false =>
      rw [List.filter_cons_of_neg (by simp [hreaches]), if_neg (by simp), List.filter_nil,
        List.map_nil]

theorem logger_of_ofCall {logger message : Text} {level seconds : Int}
    {fields : List (Text × Json)} (h : ofCall logger level message fields seconds = .ok r) :
    r.logger = logger ∧ r.level = level := by
  unfold ofCall at h
  split at h
  · cases h
  · obtain rfl := Except.ok.inj h
    exact ⟨rfl, rfl⟩

theorem call_of_ok {run logger message : Text} {level seconds : Int}
    {fields : List (Text × Json)} (h : ofCall logger level message fields seconds = .ok r) :
    (j.call run seconds logger level message fields).2 =
      emit { j with loggers := logger :: j.loggers } run r := by
  obtain ⟨hlogger, hlevel⟩ := logger_of_ofCall h
  simp only [call, emit, h, hlogger, hlevel]
  split <;> rfl

theorem call_of_error {run logger message : Text} {level seconds : Int}
    {fields : List (Text × Json)} {fault : Fault}
    (h : ofCall logger level message fields seconds = .error fault) :
    (j.call run seconds logger level message fields).2 =
      { j with loggers := logger :: j.loggers } := by
  simp only [call, h]
  split <;> rfl

theorem follows_of_grownTo {host : Host} (hgrown : j.host.GrownTo host) (hhost : k.host = host)
    (hstdout : k.stdout = j.stdout) (hstderr : k.stderr = j.stderr) :
    j.Follows k ∧ j.Adds [] k := by
  obtain ⟨tree', rfl, hgrown⟩ := hgrown
  refine ⟨⟨by rw [hhost], hhost ▸ hgrown.closed, hhost ▸ hgrown.keeps⟩, by simp [hstdout],
    by simp [hstderr], fun location => ?_⟩
  rw [hhost]
  simpa using hgrown.bytes location

/-- The record of a use, when all else that the use does has been done and has written nothing. -/
theorem InForce.emit_use {u : Use} (h : InForce threshold handler k) (hfollows : j.Follows k)
    (hadds : j.Adds [] k) (hr : u.record? = some r) (hown : k.isOwn r.logger = true) :
    InForce threshold handler (k.emit u.run r) ∧ j.Follows (k.emit u.run r) ∧
      j.Adds (u.deliveries threshold handler) (k.emit u.run r) := by
  obtain ⟨hforce, hafter, hemit⟩ := h.emit_adds hfollows.closed hown u.run
  rw [deliveries_of_record hr]
  exact ⟨hforce, hfollows.trans hafter, hadds.trans hemit⟩

/-- Whether a use goes as it is asked for: a choice succeeds, and a call is made to a logger of the
loader. -/
def Succeeds (j : Journal) (u : Use) : Prop :=
  match u.kind with
  | .configure _ _ _ => (j.use u).1 = .ok ()
  | .call logger _ _ _ => Hierarchy.isBelow Notice.rootLogger (logger :: j.loggers) logger = true
  | .notice _ => True

theorem levelOfName_nonneg (name : Text) : 0 ≤ levelOfName name := by
  have hall : ∀ entry ∈ levelNames, 0 ≤ entry.2 := by decide
  unfold levelOfName
  cases hfound : levelNames.lookup name.upper with
  | none => decide
  | some level =>
      obtain ⟨front, back, hsplit, -⟩ := List.lookup_eq_some_iff.1 hfound
      exact hall (name.upper, level) (by rw [hsplit]; simp)

/-- Whether a use leads from one log to the other: it adds its record, if that is important enough
for what is in force after the use, and that is what it has chosen, or what was in force before. -/
def Leads (threshold : Int) (before : Option Handler) (u : Use) (j k : Journal) : Prop :=
  ∃ handler, InForce threshold handler k ∧ j.Follows k ∧
    j.Adds (u.deliveries threshold handler) k ∧
    ∀ l : Journal, k.Follows l → u.chosen l.host before = handler

variable {before : Option Handler} {run : Text} {seconds : Int}

theorem leads_configure (hclosed : j.host.tree.Closed) {level : Text} {destination : Option Text}
    {json : Bool}
    (hok : (j.configure run seconds level destination json).1 = .ok ()) :
    Leads threshold before ⟨run, seconds, .configure level destination json⟩ j
      (j.configure run seconds level destination json).2 := by
  obtain ⟨host, hgrown, ⟨fault, hfails⟩ | ⟨sink, opened, hdone, hsink, hheld⟩⟩ :=
    configure_cases hclosed run seconds level destination json
  · rw [hfails] at hok
    cases hok
  · let handler : Handler := ⟨sink, levelOfName level, json⟩
    let placed : Journal := { j.cleared level with
      host := host
      handler := some handler
      opened := opened }
    have hplaced : InForce threshold (some handler) placed := by
      refine ⟨rfl, rfl, ?_, ?_⟩
      · rintro _ ⟨rfl⟩
        exact levelOfName_nonneg level
      · rintro _ location ⟨rfl⟩
        exact hheld location
    let notice : Notice := .logConfigured (destinationName destination) (levelOfName level) json
    have hown : placed.isOwn (ofNotice seconds notice).logger = true := placed.isOwn_notice notice
    obtain ⟨hfollows, hadds⟩ := follows_of_grownTo (k := placed) hgrown rfl rfl rfl
    obtain ⟨hforce, hwhole, hemit⟩ := hplaced.emit_use
      (u := ⟨run, seconds, .configure level destination json⟩) hfollows hadds rfl hown
    obtain ⟨-, hafter, -⟩ := hplaced.emit_adds hfollows.closed hown run
    rw [hdone]
    refine ⟨some handler, hforce, hwhole, hemit, fun l hl => ?_⟩
    -- The file is there since the choice was made, and nothing is taken away later.
    exact congrArg (Option.map (⟨·, levelOfName level, json⟩ : Sink → Handler))
      ((hafter.trans hl).sinkOf?_eq hsink)

theorem leads_call (hclosed : j.host.tree.Closed) (h : InForce threshold before j)
    {logger message : Text} {level : Int} {fields : List (Text × Json)}
    (hown : Hierarchy.isBelow Notice.rootLogger (logger :: j.loggers) logger = true) :
    Leads threshold before ⟨run, seconds, .call logger level message fields⟩ j
      (j.call run seconds logger level message fields).2 := by
  let known : Journal := { j with loggers := logger :: j.loggers }
  have hknown : InForce threshold before known := h.of_settings rfl rfl (.refl _)
  have hfollows : j.Follows known := ⟨rfl, hclosed, .refl _⟩
  have hadds : j.Adds [] known := ⟨by simp [known], by simp [known], by simp [known]⟩
  cases hr : ofCall logger level message fields seconds with
  | error fault =>
      have hnone : Use.deliveries ⟨run, seconds, .call logger level message fields⟩ threshold
          before = [] := by
        simp only [Use.deliveries, Use.record?, hr]
        rfl
      rw [call_of_error hr]
      exact ⟨before, hknown, hfollows, hnone ▸ hadds, fun _ _ => rfl⟩
  | ok r =>
      have hlogger : known.isOwn r.logger = true := by
        rw [(logger_of_ofCall hr).1]
        exact hown
      have hrecord : Use.record? ⟨run, seconds, .call logger level message fields⟩ = some r := by
        simp only [Use.record?, hr]
        rfl
      obtain ⟨hforce, hwhole, hemit⟩ := hknown.emit_use
        (u := ⟨run, seconds, .call logger level message fields⟩) hfollows hadds hrecord hlogger
      rw [call_of_ok hr]
      exact ⟨before, hforce, hwhole, hemit, fun _ _ => rfl⟩

theorem leads_notice (hclosed : j.host.tree.Closed) (h : InForce threshold before j)
    (notice : Notice) :
    Leads threshold before ⟨run, seconds, .notice notice⟩ j (j.report run seconds [notice]) := by
  obtain ⟨hforce, hfollows, hadds⟩ := h.emit_use (u := ⟨run, seconds, .notice notice⟩)
    (.refl hclosed) (.refl j) rfl (j.isOwn_notice notice)
  exact ⟨before, hforce, hfollows, hadds, fun _ _ => rfl⟩

/-- One step: a use leads from the log before it to the log after it. -/
theorem leads_use (hclosed : j.host.tree.Closed) (h : InForce threshold before j) {u : Use}
    (hu : j.Succeeds u) : Leads threshold before u j (j.use u).2 := by
  obtain ⟨run, seconds, kind⟩ := u
  cases kind with
  | configure => exact leads_configure hclosed hu
  | call => exact leads_call hclosed h hu
  | notice notice => exact leads_notice hclosed h notice

def SucceedAll : Journal → List Use → Prop
  | _, [] => True
  | j, u :: uses => j.Succeeds u ∧ SucceedAll (j.use u).2 uses

def lastChosen (host : Host) : Option Handler → List Use → Option Handler :=
  List.foldl fun handler u => u.chosen host handler

/-- A whole run: uses add the records that are written of them. -/
theorem useAll_adds (hclosed : j.host.tree.Closed) (h : InForce threshold before j)
    {uses : List Use} (huses : SucceedAll j uses) :
    j.Follows (j.useAll uses) ∧
      InForce threshold (lastChosen (j.useAll uses).host before uses) (j.useAll uses) ∧
      j.Adds (deliveries (j.useAll uses).host threshold before uses) (j.useAll uses) := by
  -- What a destination stands for is asked on the last host, where it is what it was on every one
  -- before.
  induction uses generalizing j before with
  | nil => exact ⟨.refl hclosed, h, .refl j⟩
  | cons u uses ih =>
      obtain ⟨hu, huses⟩ := huses
      obtain ⟨handler, hforce, hfollows, hadds, hchosen⟩ := leads_use hclosed h hu
      obtain ⟨hlater, hlast, hrest⟩ := ih hfollows.closed hforce huses
      have hsame := hchosen _ hlater
      refine ⟨hfollows.trans hlater, ?_, ?_⟩
      · rw [← hsame] at hlast
        exact hlast
      · rw [← hsame] at hadds hrest
        exact hadds.trans hrest

end Journal

end SourceLoader.Log
