import SourceLoader.Canonical
import SourceLoader.Proofs.Text.Basic

/-!
The path of a location, and what the operations on texts do to it. Joining a name to such a path
descends by one segment, taking its last component off ascends by one, and splitting it gives the
segments back. Everything that is proved about texts elsewhere goes through these laws, so that no
other module has to count slashes.
-/

namespace SourceLoader

namespace Path

/-- A segment that can be the name of something in a directory. -/
structure IsName (segment : Text) : Prop where
  ne_nil : segment ≠ []
  no_slash : '/' ∉ segment
  ne_dot : segment ≠ dot
  ne_dotDot : segment ≠ dotDot

instance (segment : Text) : Decidable (IsName segment) :=
  decidable_of_iff (segment ≠ [] ∧ '/' ∉ segment ∧ segment ≠ dot ∧ segment ≠ dotDot)
    ⟨fun h => ⟨h.1, h.2.1, h.2.2.1, h.2.2.2⟩, fun h => ⟨h.1, h.2, h.3, h.4⟩⟩

theorem trimSlashes_of_getLast? {path : Text} (h : path.getLast? ≠ some '/') :
    trimSlashes path = path := by
  rcases List.eq_nil_or_concat path with rfl | ⟨front, c, rfl⟩
  · rfl
  · rw [List.concat_eq_append] at h ⊢
    simp_all [trimSlashes]

@[simp] theorem trimSlashes_concat_slash (path : Text) :
    trimSlashes (path ++ ['/']) = trimSlashes path := by
  simp [trimSlashes]

theorem splitLast_append (front : Text) {name : Text} (h : '/' ∉ name) :
    splitLast (front ++ '/' :: name) =
      (if trimSlashes (front ++ ['/']) = [] then front ++ ['/'] else trimSlashes (front ++ ['/']),
        name) := by
  have hrev : (front ++ '/' :: name).reverse = name.reverse ++ '/' :: front.reverse := by simp
  have hrun : ((front ++ '/' :: name).reverse.takeWhile (· ≠ '/')).reverse = name := by
    rw [hrev, List.takeWhile_append_of_pos]
    · simp
    · intro c hc
      have hne : c ≠ '/' := fun he => h (he ▸ List.mem_reverse.1 hc)
      simpa using hne
  have hhead : (front ++ '/' :: name).take ((front ++ '/' :: name).length - name.length) =
      front ++ ['/'] := by
    have hsplit : front ++ '/' :: name = (front ++ ['/']) ++ name := by simp
    rw [hsplit, List.length_append, Nat.add_sub_cancel, List.take_left']
    rfl
  simp only [splitLast, hrun, hhead]
  rfl

theorem IsName.isAbsolute_eq_false {name : Text} (h : IsName name) : isAbsolute name = false := by
  cases name with
  | nil => rfl
  | cons c name =>
      have hc : c ≠ '/' := fun hc => h.no_slash (by simp [hc])
      simp [isAbsolute, hc]

end Path

namespace Location

open SourceLoader.Path

def path (location : Location) : Text := '/' :: Text.join ['/'] location

def Named (location : Location) : Prop := ∀ name ∈ location, IsName name

instance (location : Location) : Decidable (Named location) :=
  inferInstanceAs (Decidable (∀ name ∈ location, IsName name))

@[simp] theorem named_nil : Named [] := by simp [Named]

@[simp] theorem named_append {front back : Location} :
    Named (front ++ back) ↔ Named front ∧ Named back := by
  simp only [Named, List.mem_append]
  exact ⟨fun h => ⟨fun n hn => h n (.inl hn), fun n hn => h n (.inr hn)⟩,
    fun h n hn => hn.elim (h.1 n) (h.2 n)⟩

@[simp] theorem named_cons {name : Text} {rest : Location} :
    Named (name :: rest) ↔ IsName name ∧ Named rest := by
  simp [Named]

theorem Named.of_prefix {front location : Location} (h : Named location)
    (hfront : front <+: location) : Named front :=
  fun name hname => h name (hfront.subset hname)

theorem Named.dropLast {location : Location} (h : Named location) : Named location.dropLast :=
  h.of_prefix (List.dropLast_prefix location)

theorem Named.pieces {location : Location} (h : Named location) :
    ∀ name ∈ location, name ≠ [] ∧ '/' ∉ name :=
  fun name hname => ⟨(h name hname).ne_nil, (h name hname).no_slash⟩

theorem Named.splitOn_join {location : Location} (h : Named location) (hne : location ≠ []) :
    (Text.join ['/'] location).splitOn '/' = location :=
  Text.splitOn_join (fun name hname => (h name hname).no_slash) hne

@[simp] theorem path_nil : path [] = ['/'] := rfl

@[simp] theorem isAbsolute_path (location : Location) : isAbsolute (path location) = true := rfl

theorem path_singleton (name : Text) : path [name] = '/' :: name := by
  simp [path, Text.join]

theorem path_concat {location : Location} (h : location ≠ []) (name : Text) :
    path (location ++ [name]) = path location ++ '/' :: name := by
  simp [path, Text.join_concat h]

theorem exists_path_concat (location : Location) (name : Text) :
    ∃ front, path (location ++ [name]) = front ++ '/' :: name := by
  by_cases h : location = []
  · exact ⟨[], by simp [h, path_singleton]⟩
  · exact ⟨_, path_concat h name⟩

theorem path_append (front : Location) {back : Location} (hback : back ≠ []) :
    path (front ++ back) =
      (if front = [] then [] else path front) ++ '/' :: Text.join ['/'] back := by
  by_cases hfront : front = []
  · simp [hfront, path]
  · simp [hfront, path, Text.join_append hfront hback]

/-- The components of a path are its names behind the empty one before the first slash. -/
theorem splitOn_path {location : Location} (h : Named location) (hne : location ≠ []) :
    (path location).splitOn '/' = [] :: location := by
  rw [path, Text.splitOn_slash, h.splitOn_join hne]

theorem splitOn_path_nil : (path []).splitOn '/' = [[], []] := rfl

theorem filter_splitOn_path {location : Location} (h : Named location) :
    ((path location).splitOn '/').filter (· ≠ []) = location := by
  by_cases hl : location = []
  · subst hl
    rfl
  · have hself : location.filter (· ≠ []) = location :=
      List.filter_eq_self.2 fun name hname => by simpa using (h name hname).ne_nil
    simpa [splitOn_path h hl] using hself

theorem mem_path_iff {location : Location} {c : Char} (hc : c ≠ '/') :
    c ∈ path location ↔ ∃ name ∈ location, c ∈ name := by
  have hsep : c ∉ ['/'] := by simpa using hc
  rw [path, List.mem_cons, Text.mem_join_iff hsep]
  simp [hc]

theorem path_injective {location other : Location} (h : Named location) (ho : Named other)
    (heq : path location = path other) : location = other := by
  rw [← filter_splitOn_path h, ← filter_splitOn_path ho, heq]

theorem getLast?_path_concat (location : Location) {name : Text} (h : IsName name) :
    (path (location ++ [name])).getLast? ≠ some '/' := by
  obtain ⟨front, hfront⟩ := exists_path_concat location name
  rw [hfront]
  intro hlast
  apply h.no_slash
  rw [List.getLast?_append, List.getLast?_cons] at hlast
  cases hname : name.getLast? with
  | none => exact absurd (by simpa using hname) h.ne_nil
  | some c =>
      have hc : c = '/' := by simpa [hname] using hlast
      exact hc ▸ List.mem_of_getLast? hname

theorem append_path {location : Location} (h : Named location) {name : Text}
    (hname : IsName name) : append (path location) name = path (location ++ [name]) := by
  rw [append, if_neg (by simp [hname.isAbsolute_eq_false])]
  rcases List.eq_nil_or_concat location with rfl | ⟨front, last, rfl⟩
  · simp [path_singleton]
  · have hlast : IsName last := by simp_all
    have hslash := getLast?_path_concat front hlast
    rw [List.concat_eq_append, if_neg (by simp [hslash]; simp [path])]
    exact (path_concat (by simp) name).symm

theorem splitLast_path {location : Location} {name : Text} (h : Named (location ++ [name])) :
    splitLast (path (location ++ [name])) = (path location, name) := by
  have hname : IsName name := by simp_all
  rcases List.eq_nil_or_concat location with rfl | ⟨front, last, rfl⟩
  · simpa [path_singleton, trimSlashes] using splitLast_append [] hname.no_slash
  · rw [List.concat_eq_append] at h ⊢
    have hlast : IsName last := by simp_all
    rw [path_concat (by simp), splitLast_append _ hname.no_slash, trimSlashes_concat_slash,
      trimSlashes_of_getLast? (getLast?_path_concat front hlast)]
    simp [path]

theorem above_path {location : Location} (h : Named location) :
    Host.above (path location) = path location.dropLast := by
  rcases List.eq_nil_or_concat location with rfl | ⟨front, last, rfl⟩
  · rfl
  · rw [List.concat_eq_append] at h ⊢
    have hlast : IsName last := by simp_all
    rw [Host.above, if_neg (by simp [path]), splitLast_path h]
    simp [hlast.ne_dotDot]

theorem foldl_pushComponent {location : Location} (h : Named location) (rooted : Bool)
    (collected : List Text) :
    location.foldl (pushComponent rooted) collected = location.reverse ++ collected := by
  induction location generalizing collected with
  | nil => rfl
  | cons name location ih =>
      obtain ⟨hname, h⟩ := named_cons.1 h
      have hpush : pushComponent rooted collected name = name :: collected := by
        simp [pushComponent, hname.ne_nil, hname.ne_dot, hname.ne_dotDot]
      rw [List.foldl_cons, hpush, ih h]
      simp

theorem head?_join_ne_slash {location : Location} (h : Named location) (back : Text)
    (hback : location = [] → back = []) :
    (Text.join ['/'] location ++ back).head? ≠ some '/' := by
  cases location with
  | nil => simp [hback rfl, Text.join]
  | cons name location =>
      obtain ⟨hname, -⟩ := named_cons.1 h
      obtain ⟨c, name, rfl⟩ := List.exists_cons_of_ne_nil hname.ne_nil
      have hc : c ≠ '/' := fun he => hname.no_slash (by simp [he])
      cases location <;> simp [Text.join, hc]

theorem leadingSlashes_slash {rest : Text} (h : rest.head? ≠ some '/') :
    leadingSlashes ('/' :: rest) = ['/'] := by
  cases rest with
  | nil => rfl
  | cons c rest =>
      have hc : c ≠ '/' := by simpa using h
      rw [leadingSlashes] <;> simp_all

theorem leadingSlashes_network {host rest : Text} (hne : host ≠ []) (hslash : '/' ∉ host) :
    leadingSlashes ('/' :: '/' :: host ++ rest) = ['/', '/'] := by
  obtain ⟨c, host, rfl⟩ := List.exists_cons_of_ne_nil hne
  have hc : c ≠ '/' := fun he => hslash (by simp [he])
  rw [List.cons_append, List.cons_append, List.cons_append, leadingSlashes]
  simp_all

theorem leadingSlashes_path {location : Location} (h : Named location) :
    leadingSlashes (path location) = ['/'] :=
  leadingSlashes_slash (by simpa using head?_join_ne_slash h [] fun _ => rfl)

theorem normalize_path {location : Location} (h : Named location) :
    normalize (path location) = path location := by
  rw [Path.normalize, leadingSlashes_path h]
  by_cases hl : location = []
  · subst hl
    rfl
  · rw [splitOn_path h hl, List.foldl_cons]
    have hpush : pushComponent (decide (['/'] ≠ [])) [] [] = [] := by simp [pushComponent]
    rw [hpush, foldl_pushComponent h]
    simp [path]

theorem utf8Length_path_le {front location : Location} (h : front <+: location) :
    (path front).utf8Length ≤ (path location).utf8Length := by
  obtain ⟨back, rfl⟩ := h
  induction back generalizing front with
  | nil => simp
  | cons name back ih =>
      have hstep : (path front).utf8Length ≤ (path (front ++ [name])).utf8Length := by
        by_cases hf : front = []
        · subst hf
          simp [path_singleton]
        · simp [path_concat hf]
      have hrest := @ih (front ++ [name])
      rw [List.append_assoc, List.singleton_append] at hrest
      exact Nat.le_trans hstep hrest

end Location

end SourceLoader
