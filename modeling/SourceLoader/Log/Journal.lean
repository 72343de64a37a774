import SourceLoader.Host.Lookup
import SourceLoader.Log.Record
import SourceLoader.Text.Basic

/-!
The names of loggers, with dots between their parts. A logger stands below the nearest one known
whose name is left over when its own is cut off at a dot. The next cut passes over the character in
front of that dot, so where dots stand in a row not every cut counts.

Where log records go. There is one place at a time: standard output, standard error, or a file that
is written at its end. Only records from a certain level on are written, and until a place has been
chosen none but serious ones appear, as bare messages on standard error. A record that cannot be
written leaves no trace.
-/

namespace SourceLoader.Log.Hierarchy

def beforeDot? (t : Text) : Option Text :=
  match t.reverse.dropWhile (· ≠ '.') with
  | [] => none
  | _ :: lead => some lead.reverse

theorem length_lt_of_beforeDot? {t lead : Text} (h : beforeDot? t = some lead) :
    lead.length < t.length := by
  unfold beforeDot? at h
  split at h
  · simp at h
  · next _ rest hrest =>
    obtain rfl := Option.some.inj h
    have := (List.dropWhile_suffix (l := t.reverse) (· ≠ '.')).length_le
    rw [hrest] at this
    simp only [List.length_cons, List.length_reverse] at this ⊢
    omega

/-- The names of the loggers that one may stand below, the nearest one first. -/
def leads (name : Text) : List Text :=
  match _cut : beforeDot? name with
  | none | some [] => []
  | some (c :: lead) => (c :: lead) :: leads (c :: lead).dropLast
termination_by name.length
decreasing_by
  have := length_lt_of_beforeDot? _cut
  simp_all
  omega

theorem length_lt_of_mem_leads {name lead : Text} (h : lead ∈ leads name) :
    lead.length < name.length := by
  fun_induction leads name with
  | case1 | case2 => simp at h
  | case3 name c rest cut ih =>
    have hcut := length_lt_of_beforeDot? cut
    rcases List.mem_cons.1 h with rfl | h
    · exact hcut
    · have := ih h
      simp only [List.length_dropLast] at this
      omega

/-- Whether a logger is the one named `top` or stands below it, when these loggers are known. -/
def isBelow (top : Text) (known : List Text) (name : Text) : Bool :=
  if name = top then true
  else
    match _nearest : (leads name).find? (· ∈ top :: known) with
    | none => false
    | some lead => isBelow top known lead
termination_by name.length
decreasing_by exact length_lt_of_mem_leads (List.mem_of_find?_eq_some _nearest)

@[simp] theorem isBelow_self (top : Text) (known : List Text) : isBelow top known top = true := by
  simp [isBelow]

theorem beforeDot?_append (name : Text) {part : Text} (h : '.' ∉ part) :
    beforeDot? (name ++ '.' :: part) = some name := by
  have all : ∀ c ∈ part.reverse, decide (c ≠ '.') = true := by
    intro c hc
    have : c ≠ '.' := fun he => h (by simpa [he] using hc)
    simpa using this
  unfold beforeDot?
  rw [List.reverse_append, List.reverse_cons, List.append_assoc, List.dropWhile_append_of_pos all]
  simp

theorem leads_append {name part : Text} (hn : name ≠ []) (hp : '.' ∉ part) :
    leads (name ++ '.' :: part) = name :: leads name.dropLast := by
  have cut := beforeDot?_append name hp
  rw [leads]
  split <;> simp_all

end SourceLoader.Log.Hierarchy

/-! ## The log -/

namespace SourceLoader.Log

inductive Sink
  | stdout
  | stderr
  | file (location : Location)
  deriving DecidableEq

structure Handler where
  sink : Sink
  level : Int
  json : Bool
  deriving DecidableEq

def textOf? (line : Except Obstacle CodePoints) : Option Text :=
  line.toOption >>= CodePoints.toText?

def Handler.line? (h : Handler) (r : Record) : Option Text :=
  (· ++ ['\n']) <$>
    if h.json then (r.jsonLine (some dateTemplate)).toOption
    else textOf? (r.plainLine (some dateTemplate))

/-- The log together with everything it writes to. -/
structure Journal where
  host : Host
  stdout : Text
  stderr : Text
  /-- The level from which the loader's loggers take records; zero leaves it to the default. -/
  threshold : Int
  handler : Option Handler
  loggers : List Text
  /-- The log files opened so far, by the path they were opened under. -/
  opened : List (Text × Location)

namespace Journal

/-- A level above all that have names. The loader does not choose it: it stands for what surrounds the
loader and has silenced its loggers until a place is chosen. -/
def silentThreshold : Int := 51

/-- A log for which nothing has been chosen yet. Its level, and that the loggers of others write
nothing, are assumed of what surrounds the loader. -/
def initial (host : Host) : Journal := ⟨host, [], [], silentThreshold, none, [], []⟩

def isOwn (j : Journal) (logger : Text) : Bool :=
  Hierarchy.isBelow Notice.rootLogger j.loggers logger

def effectiveThreshold (j : Journal) (logger : Text) : Int :=
  if j.isOwn logger ∧ j.threshold ≠ 0 then j.threshold else warning

/-- Whether a logger takes records of this level. Levels from zero down are always off. -/
def isEnabled (j : Journal) (logger : Text) (level : Int) : Bool :=
  0 < level && j.effectiveThreshold logger ≤ level

def write (j : Journal) (sink : Sink) (text : Text) : Journal :=
  match sink with
  | .stdout => { j with stdout := j.stdout ++ text }
  | .stderr => { j with stderr := j.stderr ++ text }
  | .file location =>
    { j with host :=
        { j.host with tree := j.host.tree.append location (Text.Utf8.encode text) } }

def writeLine (j : Journal) (sink : Sink) (line : Option Text) : Journal :=
  match line with
  | some line => j.write sink line
  | none => j

/-- The bare message of a record, with what was thrown on the next line. -/
def bareLine? (r : Record) : Option Text :=
  (textOf? r.messageText).map fun message =>
    match r.exception with
    | some exception => message ++ '\n' :: exception ++ ['\n']
    | none => message ++ ['\n']

/-- Writes a record that a logger has taken. Loggers of others write nothing. -/
def deliver (j : Journal) (run : Text) (r : Record) : Journal :=
  if ¬ j.isOwn r.logger then j
  else
    match j.handler with
    | some h => if h.level ≤ r.level then j.writeLine h.sink (h.line? (r.stamp run)) else j
    | none => if warning ≤ r.level then j.writeLine .stderr (bareLine? r) else j

def emit (j : Journal) (run : Text) (r : Record) : Journal :=
  if j.isEnabled r.logger r.level then j.deliver run r else j

def report (j : Journal) (run : Text) (seconds : Int) (notices : List Notice) : Journal :=
  notices.foldl (fun j notice => j.emit run (ofNotice seconds notice)) j

/-- A free-form log call. Its fields are looked at only if the record is taken. -/
def call (j : Journal) (run : Text) (seconds : Int) (logger : Text) (level : Int) (message : Text)
    (fields : List (Text × Json)) : Except Fault Unit × Journal :=
  let j := { j with loggers := logger :: j.loggers }
  if j.isEnabled logger level then
    match ofCall logger level message fields seconds with
    | .ok r => (.ok (), j.deliver run r)
    | .error fault => (.error fault, j)
  else (.ok (), j)

def openFile (j : Journal) (path : Text) : Except Fault Sink × Journal :=
  let plain := Path.Plain.ofText path
  let (made, host) := j.host.makeDirectories plain.parent
  let j := { j with host := host }
  let opened : Except Fault (Text × Host × Location) := do
    made
    let path ←
      if Path.isAbsolute plain.toText then .ok (Path.normalize plain.toText)
      else (Path.absolute · plain.toText) <$> host.askWorkDir
    let (host, location) ← host.openLog path
    return (path, host, location)
  match opened with
  | .error fault => (.error fault, j)
  | .ok (path, host, location) =>
    let entry := (path, location)
    (.ok (.file location),
      { j with host := host, opened := if entry ∈ j.opened then j.opened else j.opened ++ [entry] })

/-- The name of a destination; none and the empty one stand for standard error. -/
def destinationName (destination : Option Text) : Text :=
  match destination with
  | some (c :: rest) => c :: rest
  | _ => "stderr".toList

/-- The sink of a destination: a stream by its name in any case, or a file by its path. -/
def openSink (j : Journal) (destination : Option Text) : Except Fault Sink × Journal :=
  let name := destinationName destination
  if name.lower = "stderr".toList then (.ok .stderr, j)
  else if name.lower = "stdout".toList then (.ok .stdout, j)
  else j.openFile name

/-- Chooses level, place and form, and reports the choice. The old place is given up first, so a
failure leaves none. -/
def configure (j : Journal) (run : Text) (seconds : Int) (level : Text)
    (destination : Option Text) (json : Bool) : Except Fault Unit × Journal :=
  let threshold := levelOfName level
  match openSink { j with threshold := threshold, handler := none } destination with
  | (.error fault, j) => (.error fault, j)
  | (.ok sink, j) =>
    let j := { j with handler := some ⟨sink, threshold, json⟩ }
    (.ok (), j.report run seconds [.logConfigured (destinationName destination) threshold json])

def contentAt (j : Journal) (location : Location) : Text :=
  Text.Utf8.decodeMarked (j.host.tree.bytesAt location)

def insertFile (file : Text × Text) : List (Text × Text) → List (Text × Text)
  | [] => [file]
  | f :: rest => if f.1 < file.1 then f :: insertFile file rest else file :: f :: rest

def files (j : Journal) : List (Text × Text) :=
  (j.opened.map fun f => (f.1, j.contentAt f.2)).foldr insertFile []

end Journal

end SourceLoader.Log
