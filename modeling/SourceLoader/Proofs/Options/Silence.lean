import SourceLoader.Proofs.Options.Interleaving
import SourceLoader.Proofs.Text.Basic

/-!
An option that a command line does not give. The reading of the line passes over it, so what it has
in the end is what it had before, and a value can as well be put in afterwards. A default from the
environment and the same option in front of the line are two ways to put one in.
-/

namespace SourceLoader.Options

variable {flag other : Flag} {value : Option Text} {words : List Word} {env : Environment}
  {arguments : List Text}

/-- Whether no word of a command line is an option with this flag. -/
def Silent (flag : Flag) (words : List Word) : Prop := ∀ explicit, .option flag explicit ∉ words

theorem Silent.tail {word : Word} (h : Silent flag (word :: words)) : Silent flag words :=
  fun explicit hmem => h explicit (List.mem_cons_of_mem word hmem)

theorem Silent.ne {explicit : Option Text} (h : Silent flag (.option other explicit :: words)) :
    other ≠ flag := by
  rintro rfl
  exact h explicit List.mem_cons_self

/-! ### A value put in beforehand -/

/-- The check of a value, which does not ask what is in the settings. -/
def Flag.check (flag : Flag) (value : Option Text) : Except Refusal Unit :=
  match flag, value with
  | .logLevel, some text => (choose .logLevel levelChoices text.upper).map fun _ => ()
  | .logFormat, some text => (choose .logFormat formatChoices text.lower).map fun _ => ()
  | _, _ => .ok ()

theorem Settings.set_eq_map (s : Settings) (flag : Flag) (value : Option Text) :
    s.set flag value = (flag.check value).map fun _ => s.put flag value := by
  cases flag with
  | logLevel | logFormat =>
      cases value with
      | none => rfl
      | some text =>
          simp only [set, Flag.check, choose]
          split <;> rfl
  | help | basePath | includePath | allowPaths | resolve | logDestination => rfl

theorem Settings.put_put (s : Settings) (h : other ≠ flag) (value value' : Option Text) :
    (s.put flag value).put other value' = (s.put other value').put flag value := by
  cases other <;> cases flag <;> first | rfl | exact absurd rfl h

theorem Settings.set_put (s : Settings) (h : other ≠ flag) (value value' : Option Text) :
    (s.put flag value).set other value' = (s.set other value').map (·.put flag value) := by
  rw [set_eq_map, set_eq_map, s.put_put h]
  cases other.check value' <;> rfl

def Reading.put (r : Reading) (flag : Flag) (value : Option Text) : Reading :=
  { r with settings := r.settings.put flag value }

def Outcome.put (outcome : Outcome) (flag : Flag) (value : Option Text) : Outcome :=
  match outcome with
  | .settings s => .settings (s.put flag value)
  | .help => .help
  | .refused refusal => .refused refusal

theorem Reading.endRun_put (r : Reading) (flag : Flag) (value : Option Text) :
    (r.put flag value).endRun = r.endRun.put flag value := by
  obtain ⟨settings, progress, unrecognized⟩ := r
  cases progress <;> rfl

theorem Reading.value_put (r : Reading) (flag : Flag) (value : Option Text) (text : Text) :
    (r.put flag value).value text = (r.value text).put flag value := by
  obtain ⟨settings, progress, unrecognized⟩ := r
  cases progress <;> cases flag <;> rfl

theorem Reading.terminator_put (r : Reading) (flag : Flag) (value : Option Text) :
    (r.put flag value).terminator = r.terminator.put flag value := by
  obtain ⟨settings, progress, unrecognized⟩ := r
  cases progress <;> rfl

theorem Reading.unknown_put (r : Reading) (flag : Flag) (value : Option Text) (text : Text) :
    (r.put flag value).unknown text = (r.unknown text).put flag value := by
  rw [unknown, endRun_put]
  rfl

theorem Reading.set_put (r : Reading) (h : other ≠ flag) (value value' : Option Text) :
    (r.put flag value).set other value' = (r.set other value').map (·.put flag value) := by
  have hset := r.endRun.settings.set_put h value value'
  rw [Reading.set, Reading.set, endRun_put]
  simp only [Reading.put, hset]
  cases r.endRun.settings.set other value' <;> rfl

/-- A value that is put in before words without its option is in the outcome. -/
theorem read_put (h : Silent flag words) (r : Reading) (value : Option Text) :
    read (r.put flag value) words = (read r words).put flag value := by
  fun_induction read r words with
  | case1 r hnone => simp [read, Reading.put, Outcome.put, hnone]
  | case2 r hsome => simp [read, Reading.put, Outcome.put, hsome]
  | case3 r text rest ih => rw [read, Reading.value_put, ih h.tail]
  | case4 r rest ih => rw [read, Reading.terminator_put, ih h.tail]
  | case5 r text rest ih => rw [read, Reading.unknown_put, ih h.tail]
  | case6 => rfl
  | case7 => rfl
  | case8 r other text rest hhelp r' hset ih =>
      have hput := r.set_put h.ne value (explicitValue text)
      rw [hset] at hput
      rw [read]
      · simp only [hput, Except.map, ih h.tail]
      · exact hhelp
  | case9 r other text rest hhelp refusal hset =>
      have hput := r.set_put h.ne value (explicitValue text)
      rw [hset] at hput
      rw [read]
      · simp only [hput, Except.map, Outcome.put]
      · exact hhelp
  | case10 r other text rest hhelp r' hset ih =>
      have hput := r.set_put h.ne value (some text)
      rw [hset] at hput
      rw [read]
      · simp only [hput, Except.map, ih h.tail.tail]
      · exact hhelp
  | case11 r other text rest hhelp refusal hset =>
      have hput := r.set_put h.ne value (some text)
      rw [hset] at hput
      rw [read]
      · simp only [hput, Except.map, Outcome.put]
      · exact hhelp
  | case12 r other rest hhelp hvalue =>
      rw [read]
      · rfl
      · exact hhelp
      · exact hvalue

/-! ### A default and an option -/

def allowPathsVariable : Text := "SOURCEVFS_ALLOW_PATHS".toList

/-- A list from the environment is written with commas again, and is the default in this form. -/
theorem defaults_allowPaths (env : Environment) (v : Text) :
    defaults ((allowPathsVariable, v) :: env) =
      (defaults env).put .allowPaths (some (Text.join [','] (Text.commaItems v))) := by
  have hself : List.lookup "SOURCEVFS_ALLOW_PATHS".toList ((allowPathsVariable, v) :: env) =
      some v :=
    List.lookup_cons_self
  have hother : ∀ name : Text, name ≠ allowPathsVariable →
      List.lookup name ((allowPathsVariable, v) :: env) = env.lookup name := by
    intro name hname
    rw [Text.lookup_cons_eq_ite, if_neg hname]
  simp only [defaults, listOf, hself, hother "SOURCEVFS_BASE_PATH".toList (by decide),
    hother "SOURCEVFS_INCLUDE_PATHS".toList (by decide),
    hother "SOURCEVFS_LOG_LEVEL".toList (by decide),
    hother "SOURCEVFS_LOG_DESTINATION".toList (by decide),
    hother "SOURCEVFS_LOG_FORMAT".toList (by decide)]
  rfl

theorem parse_variable (hwords : classifyAll arguments = .ok words)
    (hsilent : Silent .allowPaths words) (env : Environment) (v : Text) :
    parse ((allowPathsVariable, v) :: env) arguments =
      (parse env arguments).put .allowPaths (some (Text.join [','] (Text.commaItems v))) := by
  simp only [parse, hwords, defaults_allowPaths]
  exact read_put hsilent ⟨defaults env, .before, []⟩ _

theorem parse_front (hwords : classifyAll arguments = .ok words) (hsilent : Silent flag words)
    {text : Text} (hvalid : (Argument.option flag text).Valid) (env : Environment) :
    parse env ((Argument.option flag text).spell :: arguments) =
      (parse env arguments).put flag (explicitValue text) := by
  have ⟨hhelp, htakes⟩ := hvalid
  have hfront : classifyAll ((Argument.option flag text).spell :: arguments) =
      .ok (.option flag (some text) :: words) := by
    rw [classifyAll, if_neg (spell_ne_terminatorText hvalid), classify_spell hvalid, hwords]
    rfl
  have hset : (⟨defaults env, .before, []⟩ : Reading).set flag (explicitValue text) =
      .ok (Reading.put ⟨defaults env, .before, []⟩ flag (explicitValue text)) :=
    Reading.set_eq_ok_iff.2 ⟨htakes, rfl⟩
  simp only [parse, hwords, hfront]
  rw [read]
  · simp only [hset]
    exact read_put hsilent _ _
  · exact hhelp

end SourceLoader.Options
