import Mathlib
import SourceLoader.Proofs.Options.Values

/-!
Inputs and options on one command line, in any order. Each option carries its value behind an equals
sign, so no word belongs to another one. What the options lead to does not depend on where the
inputs stand. The inputs are taken up to the first option behind one of them, and a line on which
further inputs follow is refused.
-/

namespace SourceLoader.Options

inductive Argument
  | input (text : Text)
  | option (flag : Flag) (value : Text)
  deriving DecidableEq

namespace Argument

def longSpelling (flag : Flag) : Text := flag.spelledAs.getLast?.getD []

def spell : Argument → Text
  | .input text => text
  | .option flag value => longSpelling flag ++ '=' :: value

def word : Argument → Word
  | .input text => .value text
  | .option flag value => .option flag (some value)

/-- Whether an argument is an input that is not taken for an option, or an option with a value that
it takes. -/
def Valid : Argument → Prop
  | .input text => text = ['-'] ∨ text.head? ≠ some '-'
  | .option flag value => flag ≠ .help ∧ flag.Takes (explicitValue value)

instance : DecidablePred Valid
  | .input text => inferInstanceAs (Decidable (text = ['-'] ∨ text.head? ≠ some '-'))
  | .option flag value =>
    inferInstanceAs (Decidable (flag ≠ .help ∧ flag.Takes (explicitValue value)))

def isInput : Argument → Bool
  | .input _ => true
  | .option _ _ => false

def isOption (a : Argument) : Bool := !a.isInput

def input? : Argument → Option Text
  | .input text => some text
  | .option _ _ => none

def given? : Argument → Option (Flag × Option Text)
  | .input _ => none
  | .option flag value => some (flag, explicitValue value)

end Argument

open Argument

variable {a : Argument} {line : List Argument} {flag : Flag} {env : Environment}

/-! ### Words -/

theorem lookup_longSpelling (flag : Flag) :
    spellings.lookup (longSpelling flag) = some flag := by
  cases flag <;> decide

theorem eq_notMem_longSpelling (flag : Flag) : '=' ∉ longSpelling flag := by
  cases flag <;> decide

theorem exists_longSpelling (flag : Flag) :
    ∃ c rest, longSpelling flag = '-' :: '-' :: c :: rest := by
  cases flag <;> exact ⟨_, _, rfl⟩

theorem cut_append {sep : Char} {lead : Text} (h : sep ∉ lead) (tail : Text) :
    Text.cut sep (lead ++ sep :: tail) = (lead, some tail) := by
  induction lead with
  | nil => simp [Text.cut]
  | cons c lead ih =>
      obtain ⟨hc, hlead⟩ := not_or.1 (mt List.mem_cons.2 h)
      simp [Text.cut, ih hlead, Ne.symm hc]

theorem lookup_spellings_of_mem {word : Text} (h : '=' ∈ word) : spellings.lookup word = none := by
  have hspellings : ∀ s ∈ spellings, '=' ∉ s.1 := by decide
  refine List.lookup_eq_none_iff.2 fun s hs => bne_iff_ne.2 ?_
  rintro rfl
  exact hspellings s hs h

theorem ofSpelling_longSpelling (flag : Flag) (value : Text) :
    ofSpelling (longSpelling flag) flag (some value) = .option flag (some value) := by
  obtain ⟨c, rest, hlong⟩ := exists_longSpelling flag
  cases value with
  | nil => rfl
  | cons d value => simp [ofSpelling, hlong]

/-- The word of an argument means that argument. -/
theorem classify_spell (h : a.Valid) : classify a.spell = .ok a.word := by
  cases a with
  | input text =>
      obtain rfl | hhead := h
      · rfl
      · rw [spell, classify]
        · rfl
        · rintro c rest rfl
          exact hhead rfl
  | option flag value =>
      obtain ⟨c, rest, hlong⟩ := exists_longSpelling flag
      have hcut := cut_append (eq_notMem_longSpelling flag) value
      have hlookup := @lookup_spellings_of_mem (longSpelling flag ++ '=' :: value) (by simp)
      have hfound := lookup_longSpelling flag
      have hmeant := ofSpelling_longSpelling flag value
      rw [hlong] at hcut hlookup hfound hmeant
      simp only [spell, hlong, List.cons_append] at hcut hlookup ⊢
      simp only [classify, hlookup, hcut, hfound, hmeant, word]

theorem spell_ne_terminatorText (h : a.Valid) : a.spell ≠ terminatorText := by
  cases a with
  | input text =>
      rintro (rfl : text = terminatorText)
      obtain h | h := h
      · cases h
      · exact h rfl
  | option flag value =>
      obtain ⟨c, rest, hlong⟩ := exists_longSpelling flag
      simp [spell, hlong, terminatorText]

theorem classifyAll_spell (h : ∀ a ∈ line, a.Valid) :
    classifyAll (line.map spell) = .ok (line.map word) := by
  induction line with
  | nil => rfl
  | cons a line ih =>
      obtain ⟨ha, hline⟩ := List.forall_mem_cons.1 h
      rw [List.map_cons, classifyAll, if_neg (spell_ne_terminatorText ha), classify_spell ha,
        ih hline]
      rfl

/-! ### Reading -/

def inputsOf (line : List Argument) : List Text := line.filterMap input?

def givenOf (line : List Argument) : List (Flag × Option Text) := line.filterMap given?

@[simp] theorem inputsOf_nil : inputsOf [] = [] := rfl

@[simp] theorem inputsOf_input (text : Text) (line : List Argument) :
    inputsOf (.input text :: line) = text :: inputsOf line := rfl

theorem inputsOf_append (line line' : List Argument) :
    inputsOf (line ++ line') = inputsOf line ++ inputsOf line' :=
  List.filterMap_append

@[simp] theorem givenOf_option (flag : Flag) (value : Text) (line : List Argument) :
    givenOf (.option flag value :: line) = (flag, explicitValue value) :: givenOf line := rfl

def Reading.add (r : Reading) : Argument → Reading
  | .input text => r.value text
  | .option flag value =>
    { r.endRun with settings := r.settings.put flag (explicitValue value) }

def Reading.addAll (r : Reading) (line : List Argument) : Reading := line.foldl Reading.add r

/-- Words that are valid are read one by one, and no value is refused. -/
theorem read_word (h : ∀ a ∈ line, a.Valid) (r : Reading) :
    read r (line.map word) = read (r.addAll line) [] := by
  induction line generalizing r with
  | nil => rfl
  | cons a line ih =>
      obtain ⟨ha, hline⟩ := List.forall_mem_cons.1 h
      have hrest := ih hline (r.add a)
      cases a with
      | input text => exact hrest
      | option flag value =>
          obtain ⟨hflag, htakes⟩ := ha
          have hset : r.set flag (explicitValue value) = .ok (r.add (.option flag value)) :=
            Reading.set_eq_ok_iff.2 ⟨htakes, rfl⟩
          have hstep : read r (.option flag (some value) :: line.map word) =
              read (r.add (.option flag value)) (line.map word) := by
            rw [read]
            · simp only [hset]
            · exact hflag
          exact hstep.trans hrest

/-- The inputs that stand behind the first unbroken run of them. -/
def late (line : List Argument) : List Text :=
  inputsOf ((line.dropWhile isOption).dropWhile isInput)

/-- Behind the run of inputs, options still count, and inputs are late. -/
theorem addAll_behind (s : Settings) (unrecognized : List Text) (line : List Argument) :
    Reading.addAll ⟨s, .behind, unrecognized⟩ line =
      ⟨s.putAll (givenOf line), .behind, unrecognized ++ inputsOf line⟩ := by
  induction line generalizing s unrecognized with
  | nil => simp [Reading.addAll, Settings.putAll, givenOf]
  | cons a line ih =>
      cases a with
      | input text =>
          have hrest := ih s (unrecognized ++ [text])
          rwa [List.append_assoc] at hrest
      | option flag value => exact ih (s.put flag (explicitValue value)) unrecognized

theorem addAll_inside (s : Settings) (unrecognized : List Text) (line : List Argument) :
    let r := Reading.addAll ⟨s, .inside, unrecognized⟩ line
    r.settings = (s.putAll (givenOf line)).withInputs
        (s.inputs ++ inputsOf (line.takeWhile isInput)) ∧
      r.unrecognized = unrecognized ++ inputsOf (line.dropWhile isInput) := by
  -- The first option ends the run, and `addAll_behind` says the rest.
  induction line generalizing s unrecognized with
  | nil => simp [Reading.addAll, Settings.putAll, givenOf]
  | cons a line ih =>
      cases a with
      | input text =>
          obtain ⟨hsettings, hunrecognized⟩ :=
            ih (s.withInputs (s.inputs ++ [text])) unrecognized
          refine ⟨hsettings.trans ?_, hunrecognized⟩
          rw [Settings.putAll_withInputs, Settings.withInputs_withInputs,
            Settings.inputs_withInputs, List.append_assoc, List.takeWhile_cons_of_pos rfl,
            inputsOf_input]
          rfl
      | option flag value =>
          have hrest := addAll_behind (s.put flag (explicitValue value)) unrecognized line
          refine ⟨(congrArg Reading.settings hrest).trans ?_, congrArg Reading.unrecognized hrest⟩
          have hkept : s.putAll (givenOf (.option flag value :: line)) =
              (s.putAll (givenOf (.option flag value :: line))).withInputs (s.inputs ++ []) := by
            rw [List.append_nil, ← s.inputs_putAll (givenOf (.option flag value :: line)),
              Settings.withInputs_inputs]
          exact hkept

theorem addAll_before (s : Settings) (unrecognized : List Text) (line : List Argument) :
    let r := Reading.addAll ⟨s, .before, unrecognized⟩ line
    r.settings = (s.putAll (givenOf line)).withInputs
        (s.inputs ++ inputsOf ((line.dropWhile isOption).takeWhile isInput)) ∧
      r.unrecognized = unrecognized ++ late line := by
  induction line generalizing s unrecognized with
  | nil => simp [Reading.addAll, Settings.putAll, givenOf, late]
  | cons a line ih =>
      cases a with
      | input text => exact addAll_inside s unrecognized (.input text :: line)
      | option flag value =>
          obtain ⟨hsettings, hunrecognized⟩ := ih (s.put flag (explicitValue value)) unrecognized
          refine ⟨hsettings.trans ?_, hunrecognized⟩
          have hinputs : (s.put flag (explicitValue value)).inputs = s.inputs :=
            s.inputs_putAll [(flag, explicitValue value)]
          rw [hinputs, givenOf_option, Settings.putAll_cons]
          rfl

/-! ### Lines -/

/-- The settings that a line leads to if all of its inputs are taken. -/
def settingsOf (env : Environment) (line : List Argument) : Settings :=
  ((defaults env).putAll (givenOf line)).withInputs (inputsOf line)

theorem inputsOf_eq_append_late (line : List Argument) :
    inputsOf line =
      inputsOf ((line.dropWhile isOption).takeWhile isInput) ++ late line := by
  induction line with
  | nil => rfl
  | cons a line ih =>
      cases a with
      | input text =>
          have hparts := inputsOf_append ((Argument.input text :: line).takeWhile isInput)
            ((Argument.input text :: line).dropWhile isInput)
          rwa [List.takeWhile_append_dropWhile] at hparts
      | option flag value => exact ih

/-- A line is accepted if all inputs are in one unbroken run. Otherwise it is refused for those behind
the run. -/
theorem parse_spell (env : Environment) (h : ∀ a ∈ line, a.Valid) :
    parse env (line.map spell) =
      if late line = [] then .settings (settingsOf env line)
      else .refused (.unrecognized (late line)) := by
  obtain ⟨hsettings, hunrecognized⟩ := addAll_before (defaults env) [] line
  rw [parse, classifyAll_spell h]
  simp only
  rw [read_word h, read, hsettings, hunrecognized, List.nil_append]
  split
  · next hlate =>
    rw [settingsOf, inputsOf_eq_append_late line, hlate, List.append_nil]
    rfl
  · rfl

def optionsFirst (line : List Argument) : List Argument :=
  line.filter isOption ++ line.filter isInput

theorem filterMap_optionsFirst {β : Type} (f : Argument → Option β) (line : List Argument) :
    (optionsFirst line).filterMap f =
      line.filterMap (fun a => if a.isOption then f a else none) ++
        line.filterMap (fun a => if a.isInput then f a else none) := by
  rw [optionsFirst, List.filterMap_append, List.filterMap_filter, List.filterMap_filter]

theorem inputsOf_optionsFirst (line : List Argument) :
    inputsOf (optionsFirst line) = inputsOf line := by
  have hoptions : line.filterMap (fun a => if a.isOption then a.input? else none) = [] :=
    List.filterMap_eq_nil_iff.2 fun a _ => by cases a <;> rfl
  rw [inputsOf, filterMap_optionsFirst, hoptions, List.nil_append]
  exact List.filterMap_congr fun a _ => by cases a <;> rfl

theorem givenOf_optionsFirst (line : List Argument) :
    givenOf (optionsFirst line) = givenOf line := by
  have hinputs : line.filterMap (fun a => if a.isInput then a.given? else none) = [] :=
    List.filterMap_eq_nil_iff.2 fun a _ => by cases a <;> rfl
  rw [givenOf, filterMap_optionsFirst, hinputs, List.append_nil]
  exact List.filterMap_congr fun a _ => by cases a <;> rfl

theorem late_optionsFirst (line : List Argument) : late (optionsFirst line) = [] := by
  have hinputs : ∀ a ∈ (optionsFirst line).dropWhile isOption, a.isInput = true := by
    have hoptions : ∀ a ∈ line.filter isOption, a.isOption = true :=
      fun a ha => (List.mem_filter.1 ha).2
    rw [optionsFirst, List.dropWhile_append_of_pos hoptions]
    intro a ha
    exact (List.mem_filter.1 ((List.dropWhile_sublist _).mem ha)).2
  rw [late, List.dropWhile_eq_nil_iff.2 hinputs]
  rfl

/-- Whether an option stands between two inputs. -/
def Split (line : List Argument) : Prop :=
  ∃ first flag value last, [.input first, .option flag value, .input last].Sublist line

theorem sublist_dropWhile {α : Type} {p : α → Bool} {x : α} {xs ys : List α}
    (h : (x :: xs).Sublist ys) (hx : p x = false) : (x :: xs).Sublist (ys.dropWhile p) := by
  induction ys with
  | nil => cases h
  | cons y ys ih =>
      rw [List.dropWhile_cons]
      split
      · next hy =>
        cases h with
        | cons _ h => exact ih h
        | cons_cons _ h => simp [hx] at hy
      · exact h

theorem mem_inputsOf_iff {text : Text} : text ∈ inputsOf line ↔ .input text ∈ line := by
  rw [inputsOf, List.mem_filterMap]
  constructor
  · rintro ⟨a, ha, htext⟩
    cases a with
    | input text' => exact Option.some.inj htext ▸ ha
    | option flag value => cases htext
  · exact fun h => ⟨_, h, rfl⟩

theorem exists_cons_of_dropWhile {p : Argument → Bool} (h : line.dropWhile p ≠ []) :
    ∃ a rest, line.dropWhile p = a :: rest ∧ p a = false :=
  ⟨_, _, (List.cons_head_tail h).symm, List.head_dropWhile_not p h⟩

theorem late_ne_nil_iff (line : List Argument) : late line ≠ [] ↔ Split line := by
  constructor
  · intro hlate
    obtain ⟨last, hlast⟩ := List.exists_mem_of_ne_nil _ hlate
    rw [late, mem_inputsOf_iff] at hlast
    have hrun : line.dropWhile isOption ≠ [] :=
      fun hnone => List.ne_nil_of_mem hlast (by rw [hnone]; rfl)
    -- The input that begins the first run, the option that ends it and the late input stand in this
    -- order.
    obtain ⟨a, run, hfirst, ha⟩ := exists_cons_of_dropWhile hrun
    obtain ⟨first, rfl⟩ : ∃ first, a = .input first := by
      cases a with
      | input first => exact ⟨first, rfl⟩
      | option flag value => cases ha
    rw [hfirst, List.dropWhile_cons_of_pos rfl] at hlast
    obtain ⟨b, rest, hoption, hb⟩ := exists_cons_of_dropWhile (List.ne_nil_of_mem hlast)
    obtain ⟨flag, value, rfl⟩ : ∃ flag value, b = .option flag value := by
      cases b with
      | input text => cases hb
      | option flag value => exact ⟨flag, value, rfl⟩
    have hmem : .input last ∈ rest := by simpa [hoption] using hlast
    have hbehind : [.option flag value, .input last].Sublist (run.dropWhile isInput) := by
      rw [hoption]
      exact (List.singleton_sublist.2 hmem).cons_cons _
    have hall : [.input first, .option flag value, .input last].Sublist
        (line.dropWhile isOption) := by
      rw [hfirst]
      exact (hbehind.trans (List.dropWhile_sublist _)).cons_cons _
    exact ⟨first, flag, value, last, hall.trans (List.dropWhile_sublist _)⟩
  · rintro ⟨first, flag, value, last, h⟩
    have hrun := @sublist_dropWhile _ isOption _ _ _ h rfl
    have hbehind := @sublist_dropWhile _ isInput _ _ _ (List.sublist_of_cons_sublist hrun) rfl
    have hlast := hbehind.mem (List.mem_cons_of_mem _ List.mem_cons_self)
    exact List.ne_nil_of_mem (mem_inputsOf_iff.2 hlast)

/-- Inputs and options may stand in any order as long as no option stands between two inputs: then a
line is accepted with the settings that it has with its options in front of its inputs, and these
are the settings that the options lead to, with all of the inputs. A line on which an option stands
between two inputs is refused for the inputs behind the first unbroken run. -/
theorem parse_interleaved (env : Environment) (h : ∀ a ∈ line, a.Valid) :
    parse env ((optionsFirst line).map spell) = .settings (settingsOf env line) ∧
      (¬ Split line → parse env (line.map spell) = .settings (settingsOf env line)) ∧
      (Split line → late line ≠ [] ∧
        parse env (line.map spell) = .refused (.unrecognized (late line))) := by
  have hfirst : ∀ a ∈ optionsFirst line, a.Valid := by
    intro a ha
    rcases List.mem_append.1 ha with ha | ha
    · exact h a (List.mem_filter.1 ha).1
    · exact h a (List.mem_filter.1 ha).1
  refine ⟨?_, fun hsplit => ?_, fun hsplit => ?_⟩
  · rw [parse_spell env hfirst, if_pos (late_optionsFirst line), settingsOf,
      inputsOf_optionsFirst, givenOf_optionsFirst, settingsOf]
  · rw [parse_spell env h, if_pos (not_not.1 (mt (late_ne_nil_iff line).1 hsplit))]
  · have hlate := (late_ne_nil_iff line).2 hsplit
    exact ⟨hlate, by rw [parse_spell env h, if_neg hlate]⟩

def wrapped : List Argument :=
  [.option .basePath "x".toList, .input "a".toList, .input "-".toList,
    .option .resolve [], .option .logLevel "debug".toList]

def torn : List Argument :=
  [.input "a".toList, .option .basePath "x".toList, .input "b".toList]

theorem parse_interleaved_wrapped :
    (∀ a ∈ wrapped, a.Valid) ∧
      parse [] ["--base-path=x".toList, "a".toList, "-".toList, "--resolve=".toList,
        "--log-level=debug".toList] = .settings (settingsOf [] wrapped) ∧
      (∀ a ∈ torn, a.Valid) ∧
      parse [] ["a".toList, "--base-path=x".toList, "b".toList] =
        .refused (.unrecognized ["b".toList]) := by
  have hwrapped : ∀ a ∈ wrapped, a.Valid := by decide
  have htorn : ∀ a ∈ torn, a.Valid := by decide
  have hrun : ¬ Split wrapped := mt (late_ne_nil_iff wrapped).2 (not_not.2 rfl)
  have hsplit : Split torn := ⟨_, _, _, _, List.Sublist.refl torn⟩
  exact ⟨hwrapped, (parse_interleaved [] hwrapped).2.1 hrun, htorn,
    ((parse_interleaved [] htorn).2.2 hsplit).2⟩

/-- With an option between its inputs a line is refused, and with the option in front it is
accepted. -/
theorem parse_torn :
    (∀ a ∈ torn, a.Valid) ∧
      parse [] ["--base-path=x".toList, "a".toList, "b".toList] =
        .settings (settingsOf [] torn) ∧
      parse [] ["a".toList, "--base-path=x".toList, "b".toList] =
        .refused (.unrecognized ["b".toList]) := by
  refine ⟨by decide, ?_, ?_⟩ <;> cbv

end SourceLoader.Options
