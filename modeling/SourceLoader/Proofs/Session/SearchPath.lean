import SourceLoader.Proofs.Host.Access
import SourceLoader.Proofs.Host.Retraction
import SourceLoader.Proofs.Path.Anchor
import SourceLoader.Proofs.Path.Order
import SourceLoader.Session

/-!
The path of a name below a search root, and the path under which the host is asked for it. Every
name that is joined to a canonical root gives a path with a root, whatever slashes and dots the name
is made of; names with slashes between them give the canonical path of those names below the root.
The host looks up a canonical path as if it were asked for it as it is.

Joining names to directories. A name that is joined to a directory goes on from the place of that
directory, so it makes no difference to the canonical form of the whole whether the directory is
stored as it was given or in canonical form. And joining undoes what making a path relative does:
the name that is left of a path below a directory, joined to the directory, is the path again.
-/

namespace SourceLoader.Session

open SourceLoader.Path Location

theorem head?_dropWhile_slash (name : Text) : (name.dropWhile (· = '/')).head? ≠ some '/' := by
  intro hhead
  have hnot := List.head?_dropWhile_not (· = '/') name
  rw [hhead] at hnot
  simp at hnot

theorem rooted_joinSearchPath {root : Text} (h : IsCanonical root) (name : Text) :
    (split .posix (joinSearchPath root name)).rooted = true := by
  rw [joinSearchPath, if_neg h.comparable.ne_nil]
  exact rooted_below h.isAbsolute (head?_dropWhile_slash name)

theorem dropWhile_slash {name : Text} (h : name.head? ≠ some '/') :
    name.dropWhile (· = '/') = name := by
  cases name with
  | nil => rfl
  | cons c name =>
      have hc : c ≠ '/' := by simpa using h
      simp [hc]

section

variable {rootName : Text} {above below segments : List Text}

theorem joinSearchPath_render_marked (hname : IsRootName rootName) (habove : Named above)
    (hbelow : Named below) (hne : below ≠ []) (isDirectory isDirectory' : Bool) :
    joinSearchPath (render rootName above isDirectory)
        (Text.join ['/'] below ++ mark below isDirectory') =
      render rootName (above ++ below) isDirectory' := by
  have hmark : mark (above ++ below) isDirectory' = mark below isDirectory' := by
    simp [mark, hne]
  rw [joinSearchPath, if_neg (by simp [render]), trimSlashes_render hname habove,
    dropWhile_slash (head?_join_ne_slash hbelow _ fun h => absurd h hne), render_eq,
    path_append above hne, hmark]
  simp

theorem joinSearchPath_render (hname : IsRootName rootName) (habove : Named above)
    (hbelow : Named below) (hne : below ≠ []) (isDirectory : Bool) :
    joinSearchPath (render rootName above isDirectory) (Text.join ['/'] below) =
      render rootName (above ++ below) false := by
  simpa [mark] using joinSearchPath_render_marked hname habove hbelow hne isDirectory false

/-- Names with slashes between them are not taken for a name with a scheme, which has two slashes
in a row. -/
theorem withoutScheme_join (h : Named below) :
    withoutScheme (Text.join ['/'] below) = Text.join ['/'] below := by
  cases hafter : Text.after? fileScheme (Text.join ['/'] below) with
  | none =>
      rw [withoutScheme, hafter]
      rfl
  | some rest =>
      have hsplit := Text.eq_append_of_after? hafter
      have hne : below ≠ [] := by
        rintro rfl
        exact absurd (List.append_eq_nil_iff.1 hsplit.symm).1 (by decide)
      have hscheme : fileScheme ++ rest = "file:".toList ++ '/' :: ('/' :: rest) := rfl
      have hempty : [] ∈ (fileScheme ++ rest).splitOn '/' := by
        rw [hscheme, List.splitOn_append_cons_self, Text.splitOn_slash]
        exact List.mem_append_right _ List.mem_cons_self
      rw [← hsplit, h.splitOn_join hne] at hempty
      exact absurd rfl (h [] hempty).ne_nil

theorem isAbsolute_hostPath {path : Text} (h : IsCanonical path) :
    isAbsolute (hostPath path) = true := by
  obtain ⟨rest, hlead⟩ := leadingSlashes_of_isAbsolute h.isAbsolute
  simp [hostPath, Plain.toText, Plain.ofText, hlead, isAbsolute]

/-- The host is asked for the canonical path of names as it is, unless a network root is that of a
host named by a dot. That dot is left out. -/
theorem hostPath_render (hname : IsRootName rootName) (h : Named segments) (hne : segments ≠ []) :
    hostPath (render rootName segments false) = render rootName segments false ∨
      rootName = '/' :: '/' :: dot ∧
        hostPath (render rootName segments false) = '/' :: path segments := by
  rcases hname with rfl | ⟨host, hhost, hslash, rfl⟩
  · left
    rw [hostPath, toText_ofText_render h, render_eq, mark]
    simp
  · have hrender : render ('/' :: '/' :: host) segments false =
        '/' :: '/' :: host ++ path segments := by
      simp [render_eq, mark]
    have hsplit : ('/' :: '/' :: host ++ path segments).splitOn '/' =
        [] :: [] :: host :: segments := by
      rw [List.cons_append, List.cons_append, Text.splitOn_slash, Text.splitOn_slash, path,
        List.splitOn_append_cons_self, List.splitOn_eq_singleton hslash, h.splitOn_join hne]
      rfl
    have hself : segments.filter (fun c => c ≠ [] ∧ c ≠ dot) = segments :=
      List.filter_eq_self.2 fun s hs => by simpa using ⟨(h s hs).ne_nil, (h s hs).ne_dot⟩
    -- A host that is named by a dot is the one component that is left out.
    have hcomponents : (([] : Text) :: [] :: host :: segments).filter
        (fun c => c ≠ [] ∧ c ≠ dot) = if host = dot then segments else host :: segments := by
      by_cases hdot : host = dot <;> simp_all
    rw [hrender, hostPath, Plain.ofText, leadingSlashes_network hhost hslash, hsplit, hcomponents,
      Plain.toText]
    by_cases hdot : host = dot
    · right
      simp [hdot, path]
    · left
      obtain ⟨first, rest, rfl⟩ := List.exists_cons_of_ne_nil hne
      simp [hdot, path, Text.join]

theorem render_dot (segments : List Text) :
    render ('/' :: '/' :: dot) segments false = '/' :: '/' :: '.' :: path segments := by
  simp [render_eq, mark, dot]

theorem nul_not_mem_hostPath (hname : IsRootName rootName) (h : Named segments)
    (hne : segments ≠ []) (hnul : '\x00' ∉ render rootName segments false) :
    '\x00' ∉ hostPath (render rootName segments false) := by
  rcases hostPath_render hname h hne with heq | ⟨rfl, heq⟩
  · rwa [heq]
  · rw [render_dot] at hnul
    rw [heq]
    simpa using hnul

/-- A canonical path of names is looked up alike as it is and as the host is asked for it. -/
theorem lookup_hostPath (host : Host) (hname : IsRootName rootName) (h : Named segments)
    (hne : segments ≠ []) (hcheck : Host.checkLength (render rootName segments false) = .ok ())
    (followLast : Bool) :
    host.lookup followLast (hostPath (render rootName segments false)) =
      host.lookup followLast (render rootName segments false) := by
  rcases hostPath_render hname h hne with heq | ⟨rfl, heq⟩
  · rw [heq]
  · rw [render_dot] at hcheck heq ⊢
    have hshort := (Host.checkLength_eq_ok_iff.1 hcheck).2
    have hcheck' : Host.checkLength ('/' :: path segments) = .ok () :=
      Host.checkLength_eq_ok_iff.2 ⟨by simp, by simp at hshort ⊢; omega⟩
    obtain ⟨denied, hroot⟩ := host.tree.get?_root
    obtain ⟨first, rest, rfl⟩ := List.exists_cons_of_ne_nil hne
    have hfirst := (named_cons.1 h).1
    have hdot : ('.' :: path (first :: rest)).splitOn '/' = dot :: first :: rest := by
      have hpieces : ∀ s ∈ dot :: first :: rest, '/' ∉ s :=
        List.forall_mem_cons.2 ⟨by decide, fun s hs => (h.pieces s hs).2⟩
      simpa [Text.join, path, dot] using Text.splitOn_join hpieces (by simp)
    rw [heq, Host.lookup_of_isAbsolute host followLast rfl,
      Host.lookup_of_isAbsolute host followLast rfl, Host.lookupFrom, Host.lookupFrom, hcheck,
      hcheck']
    simp only [Text.splitOn_slash, hdot, splitOn_path h hne, Host.walk_slash hroot]
    -- The dot asks for no more than the name behind it does: that the root may be entered.
    cases denied with
    | true =>
        rw [Host.walk, Host.walk]
        simp [hroot, hfirst.ne_nil, dot]
    | false =>
        conv_rhs => rw [Host.walk]
        simp [hroot, dot]

theorem isFile_hostPath {host : Host} {text : Text} (hname : IsRootName rootName)
    (h : Named segments) (hne : segments ≠ [])
    (hisFile : host.isFile (render rootName segments false) = .ok true)
    (htext : host.readText (render rootName segments false) = .ok text) :
    host.isFile (hostPath (render rootName segments false)) = .ok true ∧
      host.readText (hostPath (render rootName segments false)) = .ok text := by
  have hnul := Host.nul_not_mem_of_ask hisFile
  have hnul' := nul_not_mem_hostPath hname h hne hnul
  obtain ⟨location, bytes, denied, hplace, -⟩ := Host.file_of_isFile hisFile
  have hcheck : Host.checkLength (render rootName segments false) = .ok () :=
    Host.checkLength_eq_ok_iff.2 ⟨by simp [render], Host.short_of_lookup hplace⟩
  have hlookup := lookup_hostPath host hname h hne hcheck true
  exact ⟨Host.ask_of_lookup_eq hlookup hnul' hnul hisFile,
    Host.readText_of_lookup_eq hlookup hnul' hnul htext⟩

end

end SourceLoader.Session

/-! ## Joining -/

namespace SourceLoader

open SourceLoader.Path Location

namespace Host

open Session

variable {host : Host} {workDir path : Text}

/-- The canonical form of a name that is joined to a directory: a walk along the segments of the
name, from the place where the directory is. -/
theorem canonicalize_join_eq (hposix : host.platform = .posix)
    (hwork : host.canonicalWorkDir = .ok workDir) (hslash : HasOneSlash workDir)
    (hroot : ¬ IsRootName path) {name rest : Text} (hrest : name.dropWhile (· = '/') = rest) :
    host.canonicalize (joinSearchPath path name) false =
      .ok (render (rootName .posix (anchor .posix workDir path))
        (walkFromRoot ((split .posix (anchor .posix workDir path)).segments ++
          (rest.splitOn '/').filter (· ≠ [])))
        (namesDirectory ((rest.splitOn '/').getLastD []))) := by
  have hne : path ≠ [] := fun hnil => hroot (.inl hnil)
  have hhead : rest.head? ≠ some '/' := hrest ▸ head?_dropWhile_slash name
  have habs := isAbsolute_anchor hslash.isAbsolute path
  rw [joinSearchPath, if_neg hne, hrest, canonicalize_lexical hposix hwork,
    anchor_below hslash hroot hhead, if_pos (rooted_below habs hhead), rootName_below _ hhead,
    segments_below _ hhead, isDirectory_below _ hhead]

/-- A directory that is given by more than a root name has a canonical form, and a name that is
joined to that form has the same canonical form as one joined to the directory as it was given. -/
theorem canonicalize_joinSearchPath (hposix : host.platform = .posix)
    (hwork : host.canonicalWorkDir = .ok workDir) (hslash : HasOneSlash workDir)
    (hroot : ¬ IsRootName path) (name : Text) :
    ∃ directory canonical, host.canonicalize path false = .ok directory ∧
      host.canonicalize (joinSearchPath path name) false = .ok canonical ∧
      host.canonicalize (joinSearchPath directory name) false = .ok canonical := by
  have hname := isRootName_rootName (anchor .posix workDir path)
  have hnamed := named_walkFromRoot (anchor .posix workDir path)
  have hdirectory := canonicalize_lexical hposix hwork path
  rw [if_pos (rooted_anchor hslash path)] at hdirectory
  have hcanonical := isCanonical_of_lexical hposix hdirectory
  -- The stored form stands where it is written, at the place that the directory leads to.
  have hself := anchor_render hname hnamed (split .posix path).isDirectory
    fun _ => hslash.rootName_eq
  have hbehind : ¬ IsRootName _ := (rooted_iff hcanonical.isAbsolute).1 hcanonical.rooted
  refine ⟨_, _, hdirectory, canonicalize_join_eq hposix hwork hslash hroot rfl, ?_⟩
  rw [canonicalize_join_eq hposix hwork hslash hbehind rfl, hself,
    rootName_render hname hnamed, split_render hname hnamed, walkFromRoot_walkFromRoot_append]

theorem canonicalize_joinSearchPath_climbing :
    linkedWorkDir.canonicalWorkDir = .ok "/srv/a".toList ∧ HasOneSlash "/srv/a".toList ∧
      linkedWorkDir.canonicalize "x/../..//y/".toList false = .ok "/srv/y/".toList ∧
      linkedWorkDir.canonicalize
          (joinSearchPath "x/../..//y/".toList "//b/../../../../z/.".toList) false =
        .ok "/z/".toList ∧
      linkedWorkDir.canonicalize
          (joinSearchPath "/srv/y/".toList "//b/../../../../z/.".toList) false =
        .ok "/z/".toList := by
  have hwork : linkedWorkDir.canonicalWorkDir = .ok "/srv/a".toList := by cbv
  have hslash : HasOneSlash "/srv/a".toList := ⟨"srv/a".toList, rfl, by decide⟩
  have hroot : ¬ IsRootName "x/../..//y/".toList := fun h => absurd h.rootName_eq (by decide)
  have hdirectory : linkedWorkDir.canonicalize "x/../..//y/".toList false =
      .ok "/srv/y/".toList := by
    cbv
  have hjoined : linkedWorkDir.canonicalize
      (joinSearchPath "x/../..//y/".toList "//b/../../../../z/.".toList) false =
        .ok "/z/".toList := by
    cbv
  obtain ⟨directory, canonical, hdirectory', hgiven, hstored⟩ :=
    canonicalize_joinSearchPath rfl hwork hslash hroot "//b/../../../../z/.".toList
  obtain rfl := Except.ok.inj (hdirectory.symm.trans hdirectory')
  obtain rfl := Except.ok.inj (hjoined.symm.trans hgiven)
  exact ⟨hwork, hslash, hdirectory, hjoined, hstored⟩

end Host

namespace Session

variable {a b c : Text} {below inner : List Text}

theorem isAbsolute_names (h : Named below) (hne : below ≠ []) (isDirectory : Bool) :
    isAbsolute (Text.join ['/'] below ++ mark below isDirectory) = false := by
  simpa [isAbsolute] using head?_join_ne_slash h (mark below isDirectory) fun hnil => absurd hnil hne

theorem names_ne_nil (h : Named below) (hne : below ≠ []) (isDirectory : Bool) :
    Text.join ['/'] below ++ mark below isDirectory ≠ [] :=
  List.append_ne_nil_of_left_ne_nil (join_ne_nil h.pieces hne) _

theorem trimSlashes_names (h : Named below) (hne : below ≠ []) (isDirectory : Bool) :
    trimSlashes (Text.join ['/'] below ++ mark below isDirectory) = Text.join ['/'] below := by
  have hback := trimSlashes_ne_nil (names_ne_nil h hne isDirectory)
    (isAbsolute_names h hne isDirectory)
  have htrim := trimSlashes_render (.inl rfl) h isDirectory
  rw [render_eq, if_neg hne, List.nil_append, List.nil_append, path, List.cons_append] at htrim
  have hslash := trimSlashes_append_of_ne_nil ['/'] hback
  rw [List.singleton_append, htrim] at hslash
  exact (List.cons.inj hslash).2.symm

theorem joinSearchPath_names (hbelow : Named below) (hne : below ≠ []) (hinner : Named inner)
    (hinnerNe : inner ≠ []) (isDirectory isDirectory' : Bool) :
    joinSearchPath (Text.join ['/'] below ++ mark below isDirectory)
        (Text.join ['/'] inner ++ mark inner isDirectory') =
      Text.join ['/'] (below ++ inner) ++ mark (below ++ inner) isDirectory' := by
  have hmark : mark (below ++ inner) isDirectory' = mark inner isDirectory' := by
    simp [mark, hinnerNe]
  rw [joinSearchPath, if_neg (names_ne_nil hbelow hne isDirectory),
    trimSlashes_names hbelow hne, Text.join_append hne hinnerNe, hmark,
    dropWhile_slash (head?_join_ne_slash hinner _ fun hnil => absurd hnil hinnerNe)]
  simp

theorem joinSearchPath_congr (ha : IsCanonical a) (hb : IsCanonical b) (h : SamePlace a b)
    (name : Text) : joinSearchPath a name = joinSearchPath b name := by
  obtain ⟨rootName, above, isDirectory, hname, habove, rfl⟩ := ha
  obtain ⟨rootName', above', isDirectory', hname', habove', rfl⟩ := hb
  rw [SamePlace, rootName_render hname habove, rootName_render hname' habove',
    split_render hname habove, split_render hname' habove'] at h
  obtain ⟨rfl, rfl⟩ := h
  rw [joinSearchPath, joinSearchPath, if_neg (by simp [render]), if_neg (by simp [render]),
    trimSlashes_render hname habove, trimSlashes_render hname habove]

/-- A path below a directory has a name relative to it. The name is not a rooted one, and joined to
the directory it is the path again. -/
theorem exists_relativeTo (ha : IsCanonical a) (hb : IsCanonical b)
    (h : isBelow .posix a b = .ok true) :
    ∃ name, relativeTo .posix a b = .ok name ∧ name ≠ [] ∧ isAbsolute name = false ∧
      joinSearchPath a name = b := by
  obtain ⟨rootName, above, isDirectory, hname, habove, rfl⟩ := ha
  obtain ⟨below, marked, hne, hbelow, rfl⟩ := (isBelow_render_iff hname habove hb).1 h
  exact ⟨_, relativeTo_render hname habove hbelow hne isDirectory marked,
    names_ne_nil hbelow hne marked, isAbsolute_names hbelow hne marked,
    joinSearchPath_render_marked hname habove hbelow hne isDirectory marked⟩

/-- Making a path relative in two steps and joining what is left comes to the same as making it
relative at once. -/
theorem relativeTo_trans (ha : IsCanonical a) (hb : IsCanonical b) (hc : IsCanonical c)
    (hab : isBelow .posix a b = .ok true) (hbc : isBelow .posix b c = .ok true) :
    ∃ name within, relativeTo .posix a b = .ok name ∧ relativeTo .posix b c = .ok within ∧
      relativeTo .posix a c = .ok (joinSearchPath name within) := by
  obtain ⟨rootName, above, isDirectory, hname, habove, rfl⟩ := ha
  obtain ⟨below, marked, hne, hbelow, rfl⟩ := (isBelow_render_iff hname habove hb).1 hab
  have hnamed : Named (above ++ below) := named_append.2 ⟨habove, hbelow⟩
  obtain ⟨inner, marked', hinnerNe, hinner, rfl⟩ := (isBelow_render_iff hname hnamed hc).1 hbc
  refine ⟨_, _, relativeTo_render hname habove hbelow hne isDirectory marked,
    relativeTo_render hname hnamed hinner hinnerNe marked marked', ?_⟩
  rw [joinSearchPath_names hbelow hne hinner hinnerNe, List.append_assoc]
  exact relativeTo_render hname habove (named_append.2 ⟨hbelow, hinner⟩) (by simp [hne]) _ _

/-- Two paths can be compared, and one made relative to the other, unless one of them is empty, has
no root or has dots in it; then both fail with a violation. Of canonical paths, which are those that
canonicalizing gives, exactly those below a directory are changed by being made relative to it. What
is left of such a path is a name that joins to the directory as the path, and the names that are left
step by step join to the one that is left at once. -/
theorem joinSearchPath_relativeTo (a b : Text) :
    (Comparable a ∧ Comparable b →
        (∃ below, isBelow .posix a b = .ok below) ∧ ∃ name, relativeTo .posix a b = .ok name) ∧
      (¬ (Comparable a ∧ Comparable b) →
        ∃ rule, isBelow .posix a b = .error (.violation rule) ∧
          relativeTo .posix a b = .error (.violation rule)) ∧
      (IsCanonical a → IsCanonical b →
        ∃ name, relativeTo .posix a b = .ok name ∧
          (name ≠ b ↔ isBelow .posix a b = .ok true) ∧
          (isBelow .posix a b = .ok true →
            name ≠ [] ∧ name.head? ≠ some '/' ∧ joinSearchPath a name = b ∧
              ∀ c, IsCanonical c → isBelow .posix b c = .ok true →
                ∃ within, relativeTo .posix b c = .ok within ∧
                  relativeTo .posix a c = .ok (joinSearchPath name within))) := by
  refine ⟨fun ⟨ha, hb⟩ => ?_, fun hnot => ?_, fun ha hb => ?_⟩
  · obtain ⟨below, hbelow, -⟩ := ha.isBelow_eq hb
    exact ⟨⟨below, hbelow⟩, ha.exists_relativeTo hb⟩
  · obtain ⟨rule, hrule⟩ := exists_violation_of_relativeSegments hnot
    exact ⟨rule, by simp [isBelow, hrule, bind, Except.bind],
      by simp [relativeTo, hrule, bind, Except.bind]⟩
  · obtain ⟨below, hbelow, -⟩ := ha.comparable.isBelow_eq hb.comparable
    cases below with
    | false => exact ⟨b, relativeTo_of_not_below hbelow, by simp [hbelow], by simp [hbelow]⟩
    | true =>
        obtain ⟨name, hname, hne, hrel, hjoin⟩ := exists_relativeTo ha hb hbelow
        have hdiffers : name ≠ b := by
          rintro rfl
          cases hrel.symm.trans hb.isAbsolute
        refine ⟨name, hname, by simp [hbelow, hdiffers], fun _ => ⟨hne, ?_, hjoin, ?_⟩⟩
        · simpa [isAbsolute] using hrel
        · intro c hc hbc
          obtain ⟨name', within, hname', hwithin, hat⟩ := relativeTo_trans ha hb hc hbelow hbc
          obtain rfl := Except.ok.inj (hname.symm.trans hname')
          exact ⟨within, hwithin, hat⟩

/-- Below the bare name of a network root nothing can be compared; below its root, a path is taken
apart in two steps and keeps the slash at its end. -/
theorem joinSearchPath_relativeTo_network :
    (∃ rule, isBelow .posix "//h".toList "//h/x/".toList = .error (.violation rule) ∧
        relativeTo .posix "//h".toList "//h/x/".toList = .error (.violation rule)) ∧
      IsCanonical "//h/".toList ∧ IsCanonical "//h/x/".toList ∧
      relativeTo .posix "//h/".toList "//h/x/".toList = .ok "x/".toList ∧
      joinSearchPath "//h/".toList "x/".toList = "//h/x/".toList ∧
      relativeTo .posix "//h/x/".toList "//h/x/y/z/".toList = .ok "y/z/".toList ∧
      relativeTo .posix "//h/".toList "//h/x/y/z/".toList =
        .ok (joinSearchPath "x/".toList "y/z/".toList) := by
  have hbare : ¬ Comparable "//h".toList := fun h => absurd h.rooted (by decide)
  have hroot : IsRootName "//h".toList := .inr ⟨"h".toList, by decide, by decide, rfl⟩
  have ha : IsCanonical "//h/".toList := ⟨"//h".toList, [], false, hroot, by decide, rfl⟩
  have hb : IsCanonical "//h/x/".toList := ⟨"//h".toList, [['x']], true, hroot, by decide, rfl⟩
  have hc : IsCanonical "//h/x/y/z/".toList :=
    ⟨"//h".toList, [['x'], ['y'], ['z']], true, hroot, by decide, rfl⟩
  have hab : isBelow .posix "//h/".toList "//h/x/".toList = .ok true := by cbv
  have hbc : isBelow .posix "//h/x/".toList "//h/x/y/z/".toList = .ok true := by cbv
  have hname : relativeTo .posix "//h/".toList "//h/x/".toList = .ok "x/".toList := by cbv
  have hwithin : relativeTo .posix "//h/x/".toList "//h/x/y/z/".toList = .ok "y/z/".toList := by cbv
  obtain ⟨-, hfails, -⟩ := joinSearchPath_relativeTo "//h".toList "//h/x/".toList
  obtain ⟨-, -, hcanonical⟩ := joinSearchPath_relativeTo "//h/".toList "//h/x/".toList
  obtain ⟨name, hname', -, hbelow⟩ := hcanonical ha hb
  obtain rfl := Except.ok.inj (hname.symm.trans hname')
  obtain ⟨-, -, hjoin, hdeeper⟩ := hbelow hab
  obtain ⟨within, hwithin', hat⟩ := hdeeper _ hc hbc
  obtain rfl := Except.ok.inj (hwithin.symm.trans hwithin')
  exact ⟨hfails fun h => hbare h.1, ha, hb, hname, hjoin, hwithin, hat⟩

end Session

end SourceLoader
