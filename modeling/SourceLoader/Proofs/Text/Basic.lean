import Mathlib.Data.List.DropRight
import Mathlib.Data.List.Forall2
import Mathlib.Data.List.Nodup
import SourceLoader.Text.Basic

/-!
Entries under names. A look-up finds the first entry of a name, so where names are distinct it finds
what is there, in whatever order the entries are.

The pieces of a text. Cutting a text at a separator and joining the pieces again gives the text back,
and pieces without the separator are found again in the text that they are joined to.

Lists written with commas. The items are what is left of the pieces between the commas without the
blanks around it, and nothing else can be read out of the text. An item has neither a comma nor a
blank at its ends, so items that are joined with commas again are read back as they are.
-/

namespace SourceLoader.Text

variable {α β : Type} {entries entries' : List (Text × α)}

theorem lookup_cons_eq_ite (name other : Text) (value : α) (rest : List (Text × α)) :
    ((other, value) :: rest).lookup name =
      if name = other then some value else rest.lookup name := by
  by_cases h : name = other
  · simp [h]
  · simp [List.lookup_cons, beq_false_of_ne h, h]

theorem lookup_map (f : α → β) (name : Text) (entries : List (Text × α)) :
    (entries.map (Prod.map id f)).lookup name = (entries.lookup name).map f := by
  induction entries with
  | nil => rfl
  | cons e rest ih =>
      obtain ⟨other, value⟩ := e
      simp only [List.map_cons, Prod.map, id, lookup_cons_eq_ite, ih]
      split <;> rfl

theorem lookup_eq_some_iff_mem (h : (entries.map Prod.fst).Nodup) {name : Text} {value : α} :
    entries.lookup name = some value ↔ (name, value) ∈ entries := by
  induction entries with
  | nil => simp
  | cons e rest ih =>
      obtain ⟨other, own⟩ := e
      obtain ⟨hnew, hrest⟩ := List.nodup_cons.1 h
      by_cases hname : name = other
      · subst hname
        have hnot : (name, value) ∉ rest := fun hmem =>
          hnew (List.mem_map.2 ⟨(name, value), hmem, rfl⟩)
        simp [hnot, eq_comm]
      · simp [lookup_cons_eq_ite, hname, ih hrest]

theorem lookup_of_perm (hperm : entries.Perm entries') (h : (entries.map Prod.fst).Nodup)
    (name : Text) : entries.lookup name = entries'.lookup name := by
  have h' := (hperm.map Prod.fst).nodup_iff.1 h
  ext value
  rw [lookup_eq_some_iff_mem h, lookup_eq_some_iff_mem h', hperm.mem_iff]

theorem filterMap_lookup (h : (entries.map Prod.fst).Nodup) :
    ((entries.map Prod.fst).filterMap fun name => (entries.lookup name).map (name, ·)) =
      entries := by
  have hfound : ∀ e ∈ entries,
      ((fun name => (entries.lookup name).map (name, ·)) ∘ Prod.fst) e = some e := by
    intro e he
    simp only [Function.comp, (lookup_eq_some_iff_mem h).2 he]
    rfl
  rw [List.filterMap_map, List.filterMap_congr hfound, List.filterMap_some]

end SourceLoader.Text

/-! ## Pieces -/

namespace SourceLoader.Text

theorem not_mem_of_mem_splitOn {sep : Char} {t piece : Text} (h : piece ∈ t.splitOn sep) :
    sep ∉ piece := by
  induction t generalizing piece with
  | nil => simp_all
  | cons c t ih =>
      rw [List.splitOn_cons_eq_if_modifyHead] at h
      split at h
      · rcases List.mem_cons.1 h with rfl | h
        · simp
        · exact ih h
      · next hc =>
        cases hs : t.splitOn sep with
        | nil => exact absurd hs (List.splitOn_ne_nil sep t)
        | cons first others =>
            rw [hs] at ih h
            rcases List.mem_cons.1 h with rfl | h
            · have hfirst : sep ∉ first := ih (by simp)
              have hne : sep ≠ c := fun he => hc (by simp [← he])
              exact List.not_mem_cons_of_ne_of_not_mem hne hfirst
            · exact ih (List.mem_cons_of_mem _ h)

theorem splitOn_slash (rest : Text) : ('/' :: rest).splitOn '/' = [] :: rest.splitOn '/' := by
  rw [List.splitOn_cons_eq_if_modifyHead]
  simp

theorem splitOn_join {sep : Char} {pieces : List Text} (h : ∀ piece ∈ pieces, sep ∉ piece)
    (hne : pieces ≠ []) : (join [sep] pieces).splitOn sep = pieces :=
  List.splitOn_intercalate sep h hne

theorem join_append {front back : List Text} (hfront : front ≠ []) (hback : back ≠ []) :
    join ['/'] (front ++ back) = join ['/'] front ++ '/' :: join ['/'] back := by
  induction front with
  | nil => exact absurd rfl hfront
  | cons piece front ih =>
      cases front with
      | nil =>
          obtain ⟨first, back, rfl⟩ := List.exists_cons_of_ne_nil hback
          simp [join]
      | cons second front => simpa [join] using ih (by simp)

theorem join_concat {pieces : List Text} (h : pieces ≠ []) (last : Text) :
    join ['/'] (pieces ++ [last]) = join ['/'] pieces ++ '/' :: last := by
  simpa [join] using join_append h (List.cons_ne_nil last [])

theorem mem_join_iff {sep : Text} {c : Char} (hsep : c ∉ sep) {pieces : List Text} :
    c ∈ join sep pieces ↔ ∃ piece ∈ pieces, c ∈ piece := by
  induction pieces with
  | nil => simp [join]
  | cons piece pieces ih =>
      cases pieces with
      | nil => simp [join]
      | cons second pieces =>
          have hcut : c ∈ join sep (piece :: second :: pieces) ↔
              c ∈ piece ∨ c ∈ join sep (second :: pieces) := by
            simp [join, List.intercalate_cons_cons, hsep]
          rw [hcut, ih]
          simp

theorem exists_mem_splitOn_iff {t : Text} {c : Char} (hc : c ≠ '/') :
    (∃ piece ∈ t.splitOn '/', c ∈ piece) ↔ c ∈ t := by
  have hsep : c ∉ ['/'] := by simpa using hc
  rw [← mem_join_iff hsep, join, List.intercalate_splitOn]

/-! ## Items -/

variable {t piece item : Text} {items : List Text}

/-! ### Blanks at the ends -/

/-- Whether a text neither begins nor ends with a blank. -/
structure Tight (t : Text) : Prop where
  head : ∀ c ∈ t.head?, isBlank c = false
  last : ∀ c ∈ t.getLast?, isBlank c = false

/-- Whether an item is a piece without the blanks at both of its ends. -/
structure StripsTo (piece item : Text) : Prop where
  tight : Tight item
  between : ∃ before after, piece = before ++ item ++ after ∧
    (∀ c ∈ before, isBlank c = true) ∧ ∀ c ∈ after, isBlank c = true

theorem Tight.dropWhile_append (h : Tight t) (hne : t ≠ []) (after : Text) :
    (t ++ after).dropWhile isBlank = t ++ after := by
  obtain ⟨c, rest, rfl⟩ := List.exists_cons_of_ne_nil hne
  have hc : isBlank c = false := h.head c rfl
  simp [hc]

theorem Tight.trimEnd_eq (h : Tight t) : trimEnd t = t :=
  List.rdropWhile_eq_self_iff.2 fun hne => by
    simpa using h.last _ (List.getLast?_eq_some_getLast hne)

theorem trimEnd_append {after : Text} (h : ∀ c ∈ after, isBlank c = true) (t : Text) :
    trimEnd (t ++ after) = trimEnd t := by
  have hrun : ∀ c ∈ after.reverse, isBlank c = true := by simpa using h
  rw [trimEnd, List.reverse_append, List.dropWhile_append_of_pos hrun, trimEnd]

theorem trimEnd_isPrefix (t : Text) : trimEnd t <+: t := List.rdropWhile_prefix isBlank t

theorem tight_strip (t : Text) : Tight (strip t) := by
  constructor
  · intro c hc
    obtain ⟨after, hafter⟩ := trimEnd_isPrefix (t.dropWhile isBlank)
    obtain ⟨rest, hrest⟩ : ∃ rest, t.dropWhile isBlank = c :: rest := by
      obtain ⟨rest, hstrip⟩ := List.head?_eq_some_iff.1 hc
      exact ⟨rest ++ after, by rw [← hafter, ← strip, hstrip, List.cons_append]⟩
    have hne : t.dropWhile isBlank ≠ [] := by simp [hrest]
    simpa [hrest] using List.head_dropWhile_not isBlank hne
  · intro c hc
    obtain ⟨hne, rfl⟩ := List.mem_getLast?_eq_getLast hc
    exact eq_false_of_ne_true (List.rdropWhile_last_not isBlank _ hne)

theorem stripsTo_strip (t : Text) : StripsTo t (strip t) where
  tight := tight_strip t
  between := by
    refine ⟨t.takeWhile isBlank, (t.dropWhile isBlank).rtakeWhile isBlank, ?_,
      fun c => List.mem_takeWhile_imp, fun c => List.mem_rtakeWhile_imp⟩
    have hback : strip t ++ (t.dropWhile isBlank).rtakeWhile isBlank = t.dropWhile isBlank :=
      List.rdropWhile_append_rtakeWhile
    rw [List.append_assoc, hback, List.takeWhile_append_dropWhile]

theorem StripsTo.eq_strip (h : StripsTo piece item) : item = strip piece := by
  obtain ⟨htight, before, after, rfl, hbefore, hafter⟩ := h
  rw [strip, List.append_assoc, List.dropWhile_append_of_pos hbefore]
  by_cases hne : item = []
  · have hblank : after.dropWhile isBlank = [] := List.dropWhile_eq_nil_iff.2 hafter
    rw [hne, List.nil_append, hblank]
    rfl
  · rw [htight.dropWhile_append hne, trimEnd_append hafter, htight.trimEnd_eq]

theorem stripsTo_iff : StripsTo piece item ↔ item = strip piece :=
  ⟨StripsTo.eq_strip, fun h => h ▸ stripsTo_strip piece⟩

theorem Tight.strip_eq (h : Tight t) : strip t = t :=
  (StripsTo.eq_strip ⟨h, [], [], by simp, by simp, by simp⟩).symm

/-! ### Commas -/

/-- Whether items are what a text lists: the pieces between its commas in their order, each without
the blanks around it, and those left out of which nothing remains. -/
def Lists (t : Text) (items : List Text) : Prop :=
  ∃ pieces stripped, pieces ≠ [] ∧ (∀ piece ∈ pieces, ',' ∉ piece) ∧ join [','] pieces = t ∧
    List.Forall₂ StripsTo pieces stripped ∧ items = stripped.filter (· ≠ [])

theorem forall₂_stripsTo_iff {pieces stripped : List Text} :
    List.Forall₂ StripsTo pieces stripped ↔ stripped = pieces.map strip := by
  induction pieces generalizing stripped with
  | nil => exact List.forall₂_nil_left_iff
  | cons piece pieces ih => simp [List.forall₂_cons_left_iff, stripsTo_iff, ih]

theorem lists_iff : Lists t items ↔ items = commaItems t := by
  constructor
  · rintro ⟨pieces, stripped, hne, hcomma, rfl, hstrips, rfl⟩
    rw [commaItems, splitOn_join hcomma hne, forall₂_stripsTo_iff.1 hstrips]
  · rintro rfl
    exact ⟨t.splitOn ',', (t.splitOn ',').map strip, List.splitOn_ne_nil ',' t,
      fun piece => not_mem_of_mem_splitOn, List.intercalate_splitOn ',',
      forall₂_stripsTo_iff.2 rfl, rfl⟩

structure IsItem (item : Text) : Prop where
  ne_nil : item ≠ []
  no_comma : ',' ∉ item
  tight : Tight item

theorem isItem_of_mem_commaItems (h : item ∈ commaItems t) : IsItem item := by
  obtain ⟨hmem, hne⟩ := List.mem_filter.1 h
  obtain ⟨piece, hpiece, rfl⟩ := List.mem_map.1 hmem
  obtain ⟨-, before, after, hparts, -⟩ := stripsTo_strip piece
  refine ⟨by simpa using hne, fun hcomma => ?_, tight_strip piece⟩
  have hin : ',' ∈ piece := by
    rw [hparts]
    simp [hcomma]
  exact not_mem_of_mem_splitOn hpiece hin

theorem commaItems_join (h : ∀ item ∈ items, IsItem item) : commaItems (join [','] items) = items := by
  by_cases hne : items = []
  · subst hne
    decide
  · have hstrip : items.map strip = items := by
      rw [List.map_congr_left fun item hitem => (h item hitem).tight.strip_eq, List.map_id']
    have hfilter : items.filter (· ≠ []) = items :=
      List.filter_eq_self.2 fun item hitem => by simpa using (h item hitem).ne_nil
    rw [commaItems, splitOn_join (fun item hitem => (h item hitem).no_comma) hne, hstrip, hfilter]

theorem commaItems_join_commaItems (t : Text) :
    commaItems (join [','] (commaItems t)) = commaItems t :=
  commaItems_join fun _ => isItem_of_mem_commaItems

end SourceLoader.Text
