import Mathlib.Data.List.Induction
import SourceLoader.Options.Settings

/-!
What a command line gives to the options. The values are checked one after another, and the settings
are what the accepted values lead to, in their order. So an option that keeps one value has the last
one that it was given, or what it had before.
-/

namespace SourceLoader.Options

/-! ### One value -/

def Flag.choices? : Flag → Option (List Text)
  | .logLevel => some levelChoices
  | .logFormat => some formatChoices
  | .help | .basePath | .includePath | .allowPaths | .resolve | .logDestination => none

/-- The form in which a value of an option is compared with the choices and kept. -/
def Flag.fold : Flag → Text → Text
  | .logLevel => Text.upper
  | .logFormat => Text.lower
  | .help | .basePath | .includePath | .allowPaths | .resolve | .logDestination => id

/-- Whether an option takes a value. Where the choices are limited, a text has to be one of them. -/
def Flag.Takes (flag : Flag) (value : Option Text) : Prop :=
  ∀ text ∈ value, ∀ choices ∈ flag.choices?, flag.fold text ∈ choices

instance (flag : Flag) (value : Option Text) : Decidable (flag.Takes value) :=
  inferInstanceAs (Decidable (∀ text ∈ value, ∀ choices ∈ flag.choices?, flag.fold text ∈ choices))

/-- The settings with a value of an option, which is not checked. -/
def Settings.put (s : Settings) (flag : Flag) (value : Option Text) : Settings :=
  match flag with
  | .help => s
  | .basePath => { s with basePath := value }
  | .includePath => { s with includePaths := s.includePaths ++ [value] }
  | .allowPaths => { s with allowPaths := value }
  | .resolve => { s with resolve := s.resolve ++ [value] }
  | .logLevel => { s with logLevel := value.map Text.upper }
  | .logDestination => { s with logDestination := value }
  | .logFormat => { s with logFormat := value.map Text.lower }

variable {s s' : Settings} {flag other : Flag} {value : Option Text}

theorem set_choice_eq_ok_iff {choices : List Text} {text : Text} (keep : Option Text → Settings) :
    (do return keep (← choose flag choices text)) = Except.ok s' ↔
      text ∈ choices ∧ s' = keep (some text) := by
  unfold choose
  split <;> simp_all [bind, Except.bind, pure, Except.pure, eq_comm]

theorem Settings.set_eq_ok_iff :
    s.set flag value = .ok s' ↔ flag.Takes value ∧ s' = s.put flag value := by
  cases flag with
  | logLevel =>
      cases value with
      | none => simp [Settings.set, Settings.put, Flag.Takes, eq_comm]
      | some text =>
          refine (set_choice_eq_ok_iff ({ s with logLevel := · })).trans ?_
          simp [Settings.put, Flag.Takes, Flag.choices?, Flag.fold]
  | logFormat =>
      cases value with
      | none => simp [Settings.set, Settings.put, Flag.Takes, eq_comm]
      | some text =>
          refine (set_choice_eq_ok_iff ({ s with logFormat := · })).trans ?_
          simp [Settings.put, Flag.Takes, Flag.choices?, Flag.fold]
  | _ => simp [Settings.set, Settings.put, Flag.Takes, Flag.choices?, eq_comm]

def Settings.withInputs (s : Settings) (inputs : List Text) : Settings :=
  { s with inputs := inputs }

@[simp] theorem Settings.inputs_withInputs (s : Settings) (inputs : List Text) :
    (s.withInputs inputs).inputs = inputs := rfl

@[simp] theorem Settings.withInputs_inputs (s : Settings) : s.withInputs s.inputs = s := rfl

@[simp] theorem Settings.withInputs_withInputs (s : Settings) (before after : List Text) :
    (s.withInputs before).withInputs after = s.withInputs after := rfl

theorem Settings.put_withInputs (s : Settings) (inputs : List Text) (flag : Flag)
    (value : Option Text) :
    (s.withInputs inputs).put flag value = (s.put flag value).withInputs inputs := by
  cases flag <;> rfl

/-! ### All values -/

/-- The values that words give to options, in order. -/
def given : List Word → List (Flag × Option Text)
  | [] => []
  | .option flag (some text) :: rest => (flag, explicitValue text) :: given rest
  | .option flag none :: .value text :: rest => (flag, some text) :: given rest
  | .option _ none :: rest => given rest
  | .value _ :: rest => given rest
  | .terminator :: rest => given rest
  | .unknown _ :: rest => given rest

def Settings.putAll (s : Settings) (values : List (Flag × Option Text)) : Settings :=
  values.foldl (fun s v => s.put v.1 v.2) s

theorem Settings.putAll_cons (s : Settings) (v : Flag × Option Text)
    (values : List (Flag × Option Text)) :
    s.putAll (v :: values) = (s.put v.1 v.2).putAll values := rfl

theorem Settings.putAll_concat (s : Settings) (values : List (Flag × Option Text))
    (v : Flag × Option Text) :
    s.putAll (values ++ [v]) = (s.putAll values).put v.1 v.2 := by
  rw [putAll, List.foldl_append, List.foldl_cons, List.foldl_nil, putAll]

theorem Settings.putAll_withInputs (s : Settings) (inputs : List Text)
    (values : List (Flag × Option Text)) :
    (s.withInputs inputs).putAll values = (s.putAll values).withInputs inputs := by
  induction values generalizing s with
  | nil => rfl
  | cons v values ih => rw [putAll_cons, put_withInputs, ih, putAll_cons]

@[simp] theorem Settings.inputs_putAll (s : Settings) (values : List (Flag × Option Text)) :
    (s.putAll values).inputs = s.inputs := by
  have h := congrArg Settings.inputs (s.putAll_withInputs s.inputs values)
  exact h

/-! ### Reading -/

variable {r r' : Reading} {words : List Word}

theorem Reading.settings_endRun (r : Reading) : r.endRun.settings = r.settings := by
  obtain ⟨settings, progress, unrecognized⟩ := r
  cases progress <;> rfl

theorem Reading.settings_unknown (r : Reading) (text : Text) :
    (r.unknown text).settings = r.settings :=
  r.settings_endRun

theorem Reading.settings_terminator (r : Reading) : r.terminator.settings = r.settings := by
  obtain ⟨settings, progress, unrecognized⟩ := r
  cases progress <;> rfl

theorem Reading.exists_settings_value (r : Reading) (text : Text) :
    ∃ inputs, (r.value text).settings = r.settings.withInputs inputs := by
  obtain ⟨settings, progress, unrecognized⟩ := r
  cases progress with
  | before | inside => exact ⟨settings.inputs ++ [text], rfl⟩
  | behind => exact ⟨settings.inputs, rfl⟩

theorem Reading.set_eq_ok_iff :
    r.set flag value = .ok r' ↔
      flag.Takes value ∧ r' = { r.endRun with settings := r.settings.put flag value } := by
  have hset : r.set flag value =
      (r.settings.set flag value).map fun settings => { r.endRun with settings := settings } := by
    rw [Reading.set, ← r.settings_endRun]
    cases r.endRun.settings.set flag value <;> rfl
  rw [hset]
  constructor
  · intro h
    cases hs : r.settings.set flag value with
    | error refusal => simp [hs, Except.map] at h
    | ok settings =>
        obtain ⟨htakes, rfl⟩ := Settings.set_eq_ok_iff.1 hs
        simp only [hs, Except.map, Except.ok.injEq] at h
        exact ⟨htakes, h.symm⟩
  · rintro ⟨htakes, rfl⟩
    rw [Settings.set_eq_ok_iff.2 ⟨htakes, rfl⟩, Except.map]

/-- Settings that are read are those that the values lead to, apart from the inputs, and each value
has been taken by its option. -/
theorem read_eq_settings (h : read r words = .settings s) :
    s = (r.settings.putAll (given words)).withInputs s.inputs ∧
      ∀ v ∈ given words, v.1.Takes v.2 := by
  fun_induction read r words with
  | case1 r _ =>
      cases h
      exact ⟨rfl, by simp [given]⟩
  | case3 r text rest ih =>
      obtain ⟨inputs, hinputs⟩ := r.exists_settings_value text
      rw [hinputs, Settings.putAll_withInputs, Settings.withInputs_withInputs] at ih
      exact ih h
  | case4 r rest ih =>
      rw [r.settings_terminator] at ih
      exact ih h
  | case5 r text rest ih =>
      rw [r.settings_unknown] at ih
      exact ih h
  | case8 r flag text rest _ r' hset ih =>
      obtain ⟨htakes, rfl⟩ := Reading.set_eq_ok_iff.1 hset
      obtain ⟨hs, hrest⟩ := ih h
      exact ⟨hs, List.forall_mem_cons.2 ⟨htakes, hrest⟩⟩
  | case10 r flag text rest _ r' hset ih =>
      obtain ⟨htakes, rfl⟩ := Reading.set_eq_ok_iff.1 hset
      obtain ⟨hs, hrest⟩ := ih h
      exact ⟨hs, List.forall_mem_cons.2 ⟨htakes, hrest⟩⟩
  | case2 | case6 | case7 | case9 | case11 | case12 => cases h

/-! ### Options that keep one value -/

def Flag.KeepsOne : Flag → Prop
  | .basePath | .allowPaths | .logLevel | .logDestination | .logFormat => True
  | .help | .includePath | .resolve => False

def Settings.kept (s : Settings) : Flag → Option Text
  | .basePath => s.basePath
  | .allowPaths => s.allowPaths
  | .logLevel => s.logLevel
  | .logDestination => s.logDestination
  | .logFormat => s.logFormat
  | .help | .includePath | .resolve => none

theorem Settings.kept_put_self (s : Settings) (h : flag.KeepsOne) (value : Option Text) :
    (s.put flag value).kept flag = value.map flag.fold := by
  cases flag with
  | help | includePath | resolve => cases h
  | basePath | allowPaths | logLevel | logDestination | logFormat => cases value <;> rfl

theorem Settings.kept_put_of_ne (s : Settings) (h : other ≠ flag) (value : Option Text) :
    (s.put other value).kept flag = s.kept flag := by
  cases other <;> cases flag <;> first | rfl | exact absurd rfl h

@[simp] theorem Settings.kept_withInputs (s : Settings) (inputs : List Text) (flag : Flag) :
    (s.withInputs inputs).kept flag = s.kept flag := by
  cases flag <;> rfl

def lastGiven (flag : Flag) (values : List (Flag × Option Text)) : Option (Option Text) :=
  (values.filter (·.1 = flag)).getLast?.map Prod.snd

theorem mem_of_lastGiven {values : List (Flag × Option Text)}
    (h : lastGiven flag values = some value) : (flag, value) ∈ values := by
  obtain ⟨⟨other, value⟩, hlast, rfl⟩ := Option.map_eq_some_iff.1 h
  obtain ⟨hmem, hother⟩ := List.mem_filter.1 (List.mem_of_getLast? hlast)
  obtain rfl : other = flag := of_decide_eq_true hother
  exact hmem

/-- What an option is asked to have: the last value that it is given, or else what it had before. -/
def asked (before : Settings) (values : List (Flag × Option Text)) (flag : Flag) : Option Text :=
  match lastGiven flag values with
  | some value => value.map flag.fold
  | none => before.kept flag

theorem Settings.kept_putAll (s : Settings) (h : flag.KeepsOne)
    (values : List (Flag × Option Text)) :
    (s.putAll values).kept flag = asked s values flag := by
  induction values using List.reverseRecOn with
  | nil => rfl
  | append_singleton values v ih =>
      obtain ⟨other, value⟩ := v
      rw [putAll_concat]
      by_cases hother : other = flag
      · subst hother
        have hlast : lastGiven other (values ++ [(other, value)]) = some value := by
          simp [lastGiven, List.filter_append]
        rw [kept_put_self _ h, asked, hlast]
      · have hlast : lastGiven flag (values ++ [(other, value)]) = lastGiven flag values := by
          simp [lastGiven, List.filter_append, hother]
        rw [kept_put_of_ne _ hother, ih, asked, asked, hlast]

/-! ### Options with choices -/

variable {choices : List Text} {env : Environment} {arguments : List Text}

theorem Flag.keepsOne_of_choices (h : flag.choices? = some choices) : flag.KeepsOne := by
  cases flag with
  | logLevel | logFormat => trivial
  | help | basePath | includePath | allowPaths | resolve | logDestination => cases h

theorem exists_given_of_parse (h : parse env arguments = .settings s) :
    ∃ words, classifyAll arguments = .ok words ∧
      s = ((defaults env).putAll (given words)).withInputs s.inputs ∧
      ∀ v ∈ given words, v.1.Takes v.2 := by
  unfold parse at h
  split at h
  · next words hwords => exact ⟨words, hwords, read_eq_settings h⟩
  · cases h

/-- Whether what an option is asked to have is one of its choices: a text that the command line
gives last, which has been compared with them, or else a choice that was made before. -/
def Chosen (before : Settings) (values : List (Flag × Option Text)) (flag : Flag)
    (choices : List Text) : Prop :=
  match lastGiven flag values with
  | some value => value ≠ none
  | none => ∃ text ∈ choices, before.kept flag = some text

theorem asked_mem_choices_iff {before : Settings} {values : List (Flag × Option Text)}
    (hchoices : flag.choices? = some choices) (htakes : ∀ v ∈ values, v.1.Takes v.2) :
    (∃ text ∈ choices, asked before values flag = some text) ↔
      Chosen before values flag choices := by
  rw [asked, Chosen]
  cases hlast : lastGiven flag values with
  | none => exact Iff.rfl
  | some value =>
      cases value with
      | none => simp
      | some text =>
          have htext := htakes _ (mem_of_lastGiven hlast) text rfl choices hchoices
          exact iff_of_true ⟨_, htext, rfl⟩ (Option.some_ne_none text)

/-- An option of which one value is kept has what the call asks for. Where it has choices, this is
one of them if and only if the command line has given it as a text, or the environment has made such
a choice: what comes from there is not compared with the choices. -/
theorem kept_of_parse (h : parse env arguments = .settings s) :
    ∃ words, classifyAll arguments = .ok words ∧
      (∀ flag : Flag, flag.KeepsOne → s.kept flag = asked (defaults env) (given words) flag) ∧
      ∀ flag choices, flag.choices? = some choices →
        ((∃ text ∈ choices, s.kept flag = some text) ↔
          Chosen (defaults env) (given words) flag choices) := by
  obtain ⟨words, hwords, hs, htakes⟩ := exists_given_of_parse h
  have hkept : ∀ flag : Flag, flag.KeepsOne →
      s.kept flag = asked (defaults env) (given words) flag := by
    intro flag hone
    rw [hs, Settings.kept_withInputs, Settings.kept_putAll _ hone]
  refine ⟨words, hwords, hkept, fun flag choices hchoices => ?_⟩
  rw [hkept flag (Flag.keepsOne_of_choices hchoices)]
  exact asked_mem_choices_iff hchoices htakes

end SourceLoader.Options
