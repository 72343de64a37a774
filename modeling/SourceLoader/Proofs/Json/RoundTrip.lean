import Mathlib
import SourceLoader.Proofs.Json.Characters
import SourceLoader.Proofs.Json.Sorted
import SourceLoader.Proofs.Path.Location

/-!
Written JSON is read back. Reading takes exactly the characters off the front that a value was
written as, and gives the value with the members of its objects in the order in which they were
written. Nothing but printable ASCII is written, so a value never takes more than one line.
-/

namespace SourceLoader.Json

def StopsNumber (rest : Text) : Prop := ∀ c ∈ rest.head?, Text.isDigit c = false

/-- Whether a value is read back, whatever follows it that is not a further digit. -/
def ReadsBack (v : Json) : Prop :=
  ∀ {fuel : Nat} {rest : Text}, v.render.length ≤ fuel → StopsNumber rest →
    readValue fuel (v.render ++ rest) = some (v.sorted, rest)

theorem join_cons_cons (first second : Text) (rest : List Text) :
    Text.join separator (first :: second :: rest) =
      first ++ ',' :: ' ' :: Text.join separator (second :: rest) := by
  simp [Text.join, separator, List.intercalate]

theorem join_singleton (piece : Text) : Text.join separator [piece] = piece := by
  simp [Text.join, List.intercalate]

/-- Whether nothing that is written inside an object or a list is mistaken for a value that begins
with this character. -/
def Begins (c : Char) : Prop := isBlank c = false ∧ c ≠ ']' ∧ c ≠ '\x7d'

instance (c : Char) : Decidable (Begins c) := inferInstanceAs (Decidable (_ ∧ _))

theorem begins_of_isDigit {c : Char} (h : Text.isDigit c = true) : Begins c := by
  have hne : ∀ d, Text.isDigit d = false → c ≠ d := by
    rintro d hd rfl
    rw [h] at hd
    cases hd
  refine ⟨?_, hne _ (by decide), hne _ (by decide)⟩
  simp [isBlank, hne ' ' (by decide), hne '\n' (by decide), hne '\r' (by decide),
    hne '\t' (by decide)]

theorem exists_cons_ofNat (n : Nat) :
    ∃ c tail, Text.ofNat n = c :: tail ∧ Text.isDigit c = true := by
  obtain ⟨c, tail, hdigits⟩ := List.exists_cons_of_ne_nil (Nat.toDigits_ne_nil : Text.ofNat n ≠ [])
  exact ⟨c, tail, hdigits, isDigit_of_mem_ofNat (hdigits ▸ List.mem_cons_self)⟩

theorem exists_cons_render (v : Json) : ∃ c tail, v.render = c :: tail ∧ Begins c := by
  cases v with
  | null => exact ⟨'n', _, rfl, by decide⟩
  | bool value =>
      cases value with
      | true => exact ⟨'t', _, rfl, by decide⟩
      | false => exact ⟨'f', _, rfl, by decide⟩
  | int value =>
      cases value with
      | ofNat n =>
          obtain ⟨c, tail, hdigits, hc⟩ := exists_cons_ofNat n
          exact ⟨c, tail, hdigits, begins_of_isDigit hc⟩
      | negSucc n => exact ⟨'-', _, rfl, by decide⟩
  | str value => exact ⟨'"', _, rfl, by decide⟩
  | arr items => exact ⟨'[', _, rfl, by decide⟩
  | obj members => exact ⟨'\x7b', _, rfl, by decide⟩

theorem skipBlanks_of_begins {c : Char} (h : Begins c) (rest : Text) :
    skipBlanks (c :: rest) = c :: rest := by
  simp [skipBlanks, h.1]

theorem readValue_blank (fuel : Nat) (t : Text) : readValue fuel (' ' :: t) = readValue fuel t := by
  cases fuel with
  | zero => rfl
  | succ fuel =>
    have h : skipBlanks (' ' :: t) = skipBlanks t := rfl
    rw [readValue, readValue, h]

theorem readItems_blank (fuel : Nat) (t : Text) : readItems fuel (' ' :: t) = readItems fuel t := by
  cases fuel with
  | zero => rfl
  | succ fuel => rw [readItems, readItems, readValue_blank]

theorem readMembers_blank (fuel : Nat) (t : Text) :
    readMembers fuel (' ' :: t) = readMembers fuel t := by
  cases fuel with
  | zero => rfl
  | succ fuel =>
    have h : skipBlanks (' ' :: t) = skipBlanks t := rfl
    rw [readMembers, readMembers, h]

theorem readValue_of_isDigit {c : Char} (h : Text.isDigit c = true) (fuel : Nat) (t : Text) :
    readValue (fuel + 1) (c :: t) = (readNat (c :: t)).map fun r => (.int r.1, r.2) := by
  have hne : ∀ {d : Char} {rest : Text}, Text.isDigit d = false → c :: t ≠ d :: rest := by
    rintro d rest hd heq
    obtain ⟨rfl, -⟩ := List.cons.inj heq
    rw [h] at hd
    cases hd
  rw [readValue, skipBlanks_of_begins (begins_of_isDigit h)]
  split
  · next heq => exact absurd heq (hne (by decide))
  · next heq => exact absurd heq (hne (by decide))
  · next heq => exact absurd heq (hne (by decide))
  · next heq => exact absurd heq (hne (by decide))
  · next heq => exact absurd heq (hne (by decide))
  · next heq => exact absurd heq (hne (by decide))
  · next heq => exact absurd heq (hne (by decide))
  · cases readNat (c :: t) <;> rfl

theorem readsBack_of_succ {v : Json}
    (h : ∀ fuel rest, v.render.length ≤ fuel + 1 → StopsNumber rest →
      readValue (fuel + 1) (v.render ++ rest) = some (v.sorted, rest)) : ReadsBack v := by
  intro fuel rest hfuel hrest
  cases fuel with
  | zero =>
      obtain ⟨c, tail, hrender, -⟩ := exists_cons_render v
      simp [hrender] at hfuel
  | succ fuel => exact h fuel rest hfuel hrest

theorem readsBack_null : ReadsBack .null :=
  readsBack_of_succ fun fuel rest _ _ => by simp [readValue, render, skipBlanks, isBlank, sorted]

theorem readsBack_bool (value : Bool) : ReadsBack (.bool value) :=
  readsBack_of_succ fun fuel rest _ _ => by
    cases value <;> simp [readValue, render, skipBlanks, isBlank, sorted]

theorem readsBack_int (value : Int) : ReadsBack (.int value) := by
  refine readsBack_of_succ fun fuel rest _ hrest => ?_
  cases value with
  | ofNat n =>
      have hread := readNat_ofNat n hrest
      obtain ⟨c, tail, hdigits, hc⟩ := exists_cons_ofNat n
      rw [hdigits, List.cons_append] at hread
      simp [render, Text.ofInt, hdigits, readValue_of_isDigit hc, hread, sorted]
  | negSucc n =>
      have hread := readNat_ofNat (n + 1) hrest
      simp [render, Text.ofInt, readValue, skipBlanks, isBlank, hread, sorted]
      omega

theorem readsBack_str (value : Text) : ReadsBack (.str value) := by
  refine readsBack_of_succ fun fuel rest _ _ => ?_
  have hform : renderText value ++ rest = '"' :: (value.flatMap escapeChar ++ '"' :: rest) := by
    simp [renderText]
  have hread := readChars_length value rest
  rw [render, hform]
  generalize value.flatMap escapeChar ++ '"' :: rest = inner at hread ⊢
  simp [readValue, skipBlanks, isBlank, hread, sorted]

theorem stopsNumber_cons {c : Char} (h : Text.isDigit c = false) (rest : Text) :
    StopsNumber (c :: rest) := by
  simpa [StopsNumber] using h

section

variable {fuel : Nat} {t inner rest name : Text} {v : Json}

theorem readItems_last (h : readValue fuel t = some (v, ']' :: rest)) :
    readItems (fuel + 1) t = some ([v], rest) := by
  rw [readItems, h]
  simp [skipBlanks, isBlank]

theorem readItems_more {items : List Json} (h : readValue fuel t = some (v, ',' :: ' ' :: inner))
    (hmore : readItems fuel inner = some (items, rest)) :
    readItems (fuel + 1) t = some (v :: items, rest) := by
  rw [readItems, h]
  simp [skipBlanks, isBlank, readItems_blank, hmore]

theorem readItems_render {items : List Json} (h : ∀ item ∈ items, ReadsBack item)
    (hne : items ≠ []) (hfuel : (Text.join separator (items.map render)).length + 1 ≤ fuel) :
    readItems fuel (Text.join separator (items.map render) ++ ']' :: rest) =
      some (items.map sorted, rest) := by
  -- Each item takes its fuel from the length of what is written, and a comma or the bracket ends
  -- it.
  induction items generalizing fuel with
  | nil => exact absurd rfl hne
  | cons item items ih =>
      obtain ⟨hitem, hitems⟩ := List.forall_mem_cons.1 h
      obtain ⟨fuel, rfl⟩ := Nat.exists_eq_succ_of_ne_zero (by omega : fuel ≠ 0)
      cases items with
      | nil =>
          rw [List.map_singleton, join_singleton] at hfuel ⊢
          exact readItems_last (hitem (by omega) (stopsNumber_cons (by decide) rest))
      | cons next items =>
          rw [List.map_cons, List.map_cons, join_cons_cons, ← List.map_cons] at hfuel ⊢
          simp only [List.length_append, List.length_cons] at hfuel
          rw [List.append_assoc]
          refine readItems_more (hitem ?_ ?_) (ih hitems (by simp) ?_)
          · omega
          · exact stopsNumber_cons (by decide) _
          · omega

/-- A member is read up to the end of its value; what follows decides whether it is the last. -/
theorem readMembers_name (h : readValue fuel t = some (v, inner)) :
    readMembers (fuel + 1) (renderText name ++ ':' :: ' ' :: t) =
      match skipBlanks inner with
      | '\x7d' :: rest => some ([(name, v)], rest)
      | ',' :: rest => do
        let (members, rest) ← readMembers fuel rest
        return ((name, v) :: members, rest)
      | _ => none := by
  have hform : renderText name ++ ':' :: ' ' :: t =
      '"' :: (name.flatMap escapeChar ++ '"' :: ':' :: ' ' :: t) := by
    simp [renderText]
  have hread := readChars_length name (':' :: ' ' :: t)
  rw [hform]
  generalize name.flatMap escapeChar ++ '"' :: ':' :: ' ' :: t = front at hread ⊢
  rw [readMembers]
  have hfront : skipBlanks ('"' :: front) = '"' :: front := rfl
  have hcolon : skipBlanks (':' :: ' ' :: t) = ':' :: ' ' :: t := rfl
  simp only [hfront, hread, Option.bind_eq_bind, Option.bind_some, hcolon, readValue_blank, h]
  rfl

theorem readMembers_last (h : readValue fuel t = some (v, '\x7d' :: rest)) :
    readMembers (fuel + 1) (renderText name ++ ':' :: ' ' :: t) = some ([(name, v)], rest) := by
  rw [readMembers_name h]
  rfl

theorem readMembers_more {members : List (Text × Json)}
    (h : readValue fuel t = some (v, ',' :: ' ' :: inner))
    (hmore : readMembers fuel inner = some (members, rest)) :
    readMembers (fuel + 1) (renderText name ++ ':' :: ' ' :: t) =
      some ((name, v) :: members, rest) := by
  rw [readMembers_name h]
  simp [skipBlanks, isBlank, readMembers_blank, hmore]

def renderedMembers (members : List (Text × Json)) : Text :=
  Text.join separator ((members.map (Prod.map id render)).map renderMember)

theorem readMembers_render {members : List (Text × Json)} (h : ∀ m ∈ members, ReadsBack m.2)
    (hne : members ≠ []) (hfuel : (renderedMembers members).length + 1 ≤ fuel) :
    readMembers fuel (renderedMembers members ++ '\x7d' :: rest) =
      some (members.map (Prod.map id sorted), rest) := by
  unfold renderedMembers at hfuel ⊢
  induction members generalizing fuel with
  | nil => exact absurd rfl hne
  | cons m members ih =>
      obtain ⟨hm, hmembers⟩ := List.forall_mem_cons.1 h
      obtain ⟨fuel, rfl⟩ := Nat.exists_eq_succ_of_ne_zero (by omega : fuel ≠ 0)
      cases members with
      | nil =>
          simp only [List.map_cons, List.map_nil, join_singleton, renderMember, Prod.map,
            List.length_append, List.length_cons] at hfuel ⊢
          rw [List.append_assoc]
          exact readMembers_last (hm (by omega) (stopsNumber_cons (by decide) rest))
      | cons next members =>
          rw [List.map_cons, List.map_cons, List.map_cons, List.map_cons, join_cons_cons,
            ← List.map_cons, ← List.map_cons] at hfuel ⊢
          simp only [List.length_append, List.length_cons, renderMember, Prod.map] at hfuel
          rw [renderMember, List.append_assoc, List.append_assoc]
          refine readMembers_more (hm ?_ ?_) (ih hmembers (by simp) ?_)
          · omega
          · exact stopsNumber_cons (by decide) _
          · omega

end

theorem exists_cons_join (piece : Text) (pieces : List Text) :
    ∃ back, Text.join separator (piece :: pieces) = piece ++ back := by
  cases pieces with
  | nil => exact ⟨[], by simp [join_singleton]⟩
  | cons next pieces => exact ⟨_, join_cons_cons piece next pieces⟩

theorem readValue_arr {fuel : Nat} {c : Char} {inner rest : Text} {items : List Json}
    (hc : Begins c) (h : readItems fuel (c :: inner) = some (items, rest)) :
    readValue (fuel + 1) ('[' :: c :: inner) = some (.arr items, rest) := by
  have hblanks := skipBlanks_of_begins hc inner
  have hopen : skipBlanks ('[' :: c :: inner) = '[' :: c :: inner := rfl
  rw [readValue, hopen]
  simp only [hblanks]
  split
  · next heq => exact absurd (List.cons.inj heq).1 hc.2.1
  · simp [h]

theorem readValue_obj {fuel : Nat} {c : Char} {inner rest : Text} {members : List (Text × Json)}
    (hc : Begins c) (h : readMembers fuel (c :: inner) = some (members, rest)) :
    readValue (fuel + 1) ('\x7b' :: c :: inner) = some (.obj members, rest) := by
  have hblanks := skipBlanks_of_begins hc inner
  have hopen : skipBlanks ('\x7b' :: c :: inner) = '\x7b' :: c :: inner := rfl
  rw [readValue, hopen]
  simp only [hblanks]
  split
  · next heq => exact absurd (List.cons.inj heq).1 hc.2.2
  · simp [h]

theorem readsBack_arr {items : List Json} (h : ∀ item ∈ items, ReadsBack item) :
    ReadsBack (.arr items) := by
  refine readsBack_of_succ fun fuel rest hfuel _ => ?_
  rw [render, renderItems_eq] at hfuel ⊢
  cases items with
  | nil => simp [readValue, skipBlanks, isBlank, sorted, sortedItems, Text.join]
  | cons item items =>
      simp only [List.cons_append, List.length_cons, List.length_append, List.length_nil] at hfuel
      have hread := @readItems_render fuel rest _ h (by simp) (by omega)
      obtain ⟨c, tail, hrender, hc⟩ := exists_cons_render item
      obtain ⟨back, hjoin⟩ := exists_cons_join item.render (items.map render)
      rw [List.map_cons, hjoin, hrender] at hread ⊢
      have hvalue := readValue_arr hc hread
      rw [sorted, sortedItems_eq]
      simpa using hvalue

theorem render_obj (members : List (Text × Json)) :
    render (.obj members) = '\x7b' :: renderedMembers (sortMembers members) ++ ['\x7d'] := by
  rw [render, renderMembers_eq, renderObject, ← map_sortMembers, renderedMembers]

theorem readsBack_obj {members : List (Text × Json)} (h : ∀ m ∈ members, ReadsBack m.2) :
    ReadsBack (.obj members) := by
  refine readsBack_of_succ fun fuel rest hfuel _ => ?_
  have hsorted : ∀ m ∈ sortMembers members, ReadsBack m.2 :=
    fun m hm => h m ((sortMembers_perm members).mem_iff.1 hm)
  rw [sorted, sortedMembers_eq, ← map_sortMembers]
  rw [render_obj] at hfuel ⊢
  cases hmembers : sortMembers members with
  | nil => simp [readValue, skipBlanks, isBlank, renderedMembers, Text.join]
  | cons m rest' =>
      rw [hmembers] at hsorted hfuel
      simp only [List.cons_append, List.length_cons, List.length_append, List.length_nil] at hfuel
      have hread := @readMembers_render fuel rest _ hsorted (by simp) (by omega)
      obtain ⟨back, hjoin⟩ := exists_cons_join (renderMember (m.1, m.2.render))
        ((rest'.map (Prod.map id render)).map renderMember)
      obtain ⟨tail, hfirst⟩ : ∃ tail, renderedMembers (m :: rest') = '"' :: tail := ⟨_, hjoin⟩
      rw [hfirst] at hread ⊢
      have hvalue := readValue_obj (by decide) hread
      simpa using hvalue

/-- Every value is read back in its sorted form. -/
theorem readsBack (v : Json) : ReadsBack v := by
  induction v using induction with
  | null => exact readsBack_null
  | bool value => exact readsBack_bool value
  | int value => exact readsBack_int value
  | str value => exact readsBack_str value
  | arr items ih => exact readsBack_arr ih
  | obj members ih => exact readsBack_obj ih

theorem read?_render (v : Json) : read? v.render = some v.sorted := by
  have hread := @readsBack v (v.render.length + 1) [] (by omega) (by simp [StopsNumber])
  rw [List.append_nil] at hread
  simp [read?, hread, skipBlanks]

/-! ### What is written -/

theorem isPrintable_of_mem_join {pieces : List Text}
    (h : ∀ piece ∈ pieces, ∀ c ∈ piece, IsPrintable c) {c : Char}
    (hc : c ∈ Text.join separator pieces) : IsPrintable c := by
  by_cases hsep : c ∈ separator
  · obtain rfl | rfl : c = ',' ∨ c = ' ' := by simpa [separator] using hsep
    · decide
    · decide
  · obtain ⟨piece, hpiece, hmem⟩ := (Text.mem_join_iff hsep).1 hc
    exact h piece hpiece c hmem

theorem isPrintable_of_isDigit {c : Char} (h : Text.isDigit c = true) : IsPrintable c := by
  simp only [Text.isDigit, Bool.and_eq_true, decide_eq_true_eq] at h
  exact ⟨le_trans (by decide) h.1, le_trans h.2 (by decide)⟩

theorem isPrintable_of_mem_ofInt {value : Int} {c : Char} (h : c ∈ Text.ofInt value) :
    IsPrintable c := by
  cases value with
  | ofNat n => exact isPrintable_of_isDigit (isDigit_of_mem_ofNat h)
  | negSucc n =>
      rcases List.mem_cons.1 h with rfl | h
      · decide
      · exact isPrintable_of_isDigit (isDigit_of_mem_ofNat h)

theorem isPrintable_of_mem_renderText {t : Text} {c : Char} (h : c ∈ renderText t) :
    IsPrintable c := by
  simp only [renderText, List.cons_append, List.mem_cons, List.mem_append, List.mem_flatMap,
    List.not_mem_nil, or_false] at h
  rcases h with rfl | ⟨d, -, hd⟩ | rfl
  · decide
  · exact isPrintable_of_mem_escapeChar hd
  · decide

/-- Whatever a value holds, only printable ASCII is written for it. -/
theorem isPrintable_of_mem_render {v : Json} : ∀ c ∈ v.render, IsPrintable c := by
  induction v using induction with
  | null => simp [render, IsPrintable]
  | bool value => cases value <;> simp [render, IsPrintable]
  | int value => exact fun c hc => isPrintable_of_mem_ofInt hc
  | str value => exact fun c hc => isPrintable_of_mem_renderText hc
  | arr items ih =>
      intro c hc
      rw [render, renderItems_eq, List.cons_append, List.mem_cons, List.mem_append,
        List.mem_singleton] at hc
      rcases hc with rfl | hc | rfl
      · decide
      · exact isPrintable_of_mem_join (by simpa using ih) hc
      · decide
  | obj members ih =>
      intro c hc
      rw [render_obj, List.cons_append, List.mem_cons, List.mem_append, List.mem_singleton] at hc
      rcases hc with rfl | hc | rfl
      · decide
      · refine isPrintable_of_mem_join (fun piece hpiece d hd => ?_) hc
        obtain ⟨m, hm, rfl⟩ : ∃ m ∈ sortMembers members,
            renderMember (m.1, m.2.render) = piece := by
          simpa using hpiece
        have hmem := (sortMembers_perm members).mem_iff.1 hm
        simp only [renderMember, List.mem_append, List.mem_cons] at hd
        rcases hd with hd | rfl | rfl | hd
        · exact isPrintable_of_mem_renderText hd
        · decide
        · decide
        · exact ih m hmem d hd
      · decide

end SourceLoader.Json
