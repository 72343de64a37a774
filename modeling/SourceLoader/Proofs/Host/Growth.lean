import Mathlib
import SourceLoader.Host.Lookup
import SourceLoader.Proofs.Host.Descent
import SourceLoader.Proofs.Host.ExtraFile

/-!
What a log does to the files of a host. To open a log file, directories and an empty file come into
being where nothing stands, and writing adds bytes to a file or a pipe. Nothing is taken away: what
stood somewhere still does, and a look-up that ended at something ends there afterwards.
-/

namespace SourceLoader

def Entry.shell : Entry → Entry
  | .file _ denied => .file [] denied
  | .pipe _ => .pipe []
  | entry => entry

def Entry.bytes : Entry → Text.Utf8.Bytes
  | .file bytes _ | .pipe bytes => bytes
  | _ => []

namespace Tree

variable {t t' t'' : Tree} {location other : Location} {entry : Entry} {bytes : Text.Utf8.Bytes}

/-- Whether everything stands in a directory. -/
def Closed (t : Tree) : Prop :=
  ∀ location name, (t.get? (location ++ [name])).isSome → t.isDirectoryAt location = true

/-- Whether something stands at a place that is no link. -/
def Solid (t : Tree) (location : Location) : Prop :=
  ∃ entry, t.get? location = some entry ∧ ∀ target, entry ≠ .link target

def Holds (t : Tree) (location : Location) : Prop :=
  ∃ entry, t.get? location = some entry ∧ entry.isDirectory = false ∧
    ∀ target, entry ≠ .link target

/-- Whether everything that stands in one tree stands in the other as well, with any bytes. -/
def Keeps (t t' : Tree) : Prop :=
  ∀ location entry, t.get? location = some entry →
    (t'.get? location).map Entry.shell = some entry.shell

/-- Whether one tree has come about from the other by things without bytes, each in a directory. -/
structure Grown (t t' : Tree) : Prop where
  keeps : t.Keeps t'
  closed : t'.Closed
  bytes : ∀ location, t'.bytesAt location = t.bytesAt location

theorem bytesAt_eq (t : Tree) (location : Location) :
    t.bytesAt location = (t.get? location).elim [] Entry.bytes := by
  unfold bytesAt
  rcases t.get? location with - | (- | - | - | -) <;> rfl

theorem Keeps.refl (t : Tree) : t.Keeps t := fun _ _ h => by rw [h, Option.map_some]

theorem Keeps.trans (h : t.Keeps t') (h' : t'.Keeps t'') : t.Keeps t'' := by
  intro location entry hentry
  obtain ⟨entry', hentry', hshell⟩ := Option.map_eq_some_iff.1 (h location entry hentry)
  rw [h' location entry' hentry', hshell]

theorem Grown.refl (h : t.Closed) : t.Grown t := ⟨.refl t, h, fun _ => rfl⟩

theorem Grown.trans (h : t.Grown t') (h' : t'.Grown t'') : t.Grown t'' :=
  ⟨h.keeps.trans h'.keeps, h'.closed, fun location => (h'.bytes location).trans (h.bytes location)⟩

theorem Keeps.get?_directory (h : t.Keeps t') {denied : Bool}
    (hentry : t.get? location = some (.directory denied)) :
    t'.get? location = some (.directory denied) := by
  obtain ⟨entry', hentry', hshell⟩ := Option.map_eq_some_iff.1 (h _ _ hentry)
  cases entry' <;> simp_all [Entry.shell]

theorem Keeps.get?_link (h : t.Keeps t') {target : Text}
    (hentry : t.get? location = some (.link target)) :
    t'.get? location = some (.link target) := by
  obtain ⟨entry', hentry', hshell⟩ := Option.map_eq_some_iff.1 (h _ _ hentry)
  cases entry' <;> simp_all [Entry.shell]

theorem Keeps.solid (h : t.Keeps t') (hsolid : t.Solid location) : t'.Solid location := by
  obtain ⟨entry, hentry, hne⟩ := hsolid
  obtain ⟨entry', hentry', hshell⟩ := Option.map_eq_some_iff.1 (h _ _ hentry)
  refine ⟨entry', hentry', ?_⟩
  rintro target rfl
  cases entry <;> simp_all [Entry.shell]

theorem Keeps.holds (h : t.Keeps t') (hholds : t.Holds location) : t'.Holds location := by
  obtain ⟨entry, hentry, hdirectory, hne⟩ := hholds
  obtain ⟨entry', hentry', hshell⟩ := Option.map_eq_some_iff.1 (h _ _ hentry)
  refine ⟨entry', hentry', ?_, ?_⟩
  · cases entry <;> cases entry' <;> simp_all [Entry.shell, Entry.isDirectory]
  · rintro target rfl
    cases entry <;> simp_all [Entry.shell]

theorem solid_of_directory {denied : Bool} (h : t.get? location = some (.directory denied)) :
    t.Solid location := ⟨_, h, fun _ => Entry.noConfusion⟩

theorem solid_root (t : Tree) : t.Solid [] := by
  obtain ⟨denied, hroot⟩ := t.get?_root
  exact solid_of_directory hroot

theorem Closed.get?_append_eq_none (h : t.Closed) (hfree : t.get? location = none)
    (more : List Text) : t.get? (location ++ more) = none := by
  induction more using List.reverseRecOn with
  | nil => simpa using hfree
  | append_singleton more name ih =>
      by_contra hsome
      have hdirectory := h (location ++ more) name (by
        rw [List.append_assoc]
        exact Option.isSome_iff_ne_none.2 hsome)
      simp [isDirectoryAt, ih] at hdirectory

theorem Closed.exists_directory_dropLast (h : t.Closed) (hentry : t.get? location = some entry) :
    ∃ denied, t.get? location.dropLast = some (.directory denied) := by
  cases location using List.reverseRecOn with
  | nil => exact t.get?_root
  | append_singleton above name =>
      have hdirectory := h above name (by simp [hentry])
      rw [List.dropLast_concat]
      unfold isDirectoryAt at hdirectory
      split at hdirectory
      · next entry' hentry' =>
        cases entry' <;> simp_all [Entry.isDirectory]
      · cases hdirectory

theorem get?_set_of_free (h : t.Closed) (hfree : t.get? location = none) (entry : Entry)
    (other : Location) :
    (t.set location entry).get? other = if other = location then some entry else t.get? other := by
  have hne := ne_nil_of_get?_eq_none hfree
  split
  · next hsame => rw [hsame, get?_set_self t hne]
  · next hother =>
    have hremove : t.set location entry = ⟨(location, entry) :: (t.remove location).entries⟩ := by
      rw [set, if_neg (by simp [isDirectoryAt, hfree])]
    by_cases hbelow : location <+: other
    · -- What stood below a free place would be taken away, but nothing does.
      obtain ⟨more, rfl⟩ := hbelow
      have hnil : location ++ more ≠ [] := by simp [hne]
      have hgone : ((t.remove location).entries).lookup (location ++ more) = none := by
        rw [List.lookup_eq_none_iff]
        intro e he
        rw [bne_iff_ne]
        rintro heq
        have hkept := (List.mem_filter.1 he).2
        rw [← heq] at hkept
        simp at hkept
      rw [h.get?_append_eq_none hfree, get?_of_ne_nil _ hnil, hremove]
      simp only [List.lookup_cons, beq_false_of_ne hother, hgone]
    · have hbelow' : location.isPrefixOf other = false :=
        Bool.eq_false_iff.2 fun hprefix => hbelow (List.isPrefixOf_iff_prefix.1 hprefix)
      have hkept := @lookup_filter (fun e => ¬ location.isPrefixOf e.1) other
        (fun _ => by simp [hbelow']) t.entries
      have hlookup : (t.set location entry).entries.lookup other = t.entries.lookup other := by
        rw [hremove]
        simpa [List.lookup_cons, beq_false_of_ne hother, remove] using hkept
      simp only [get?, hlookup]

theorem grown_set (h : t.Closed) {above : Location} {name : Text} {denied : Bool}
    (habove : t.get? above = some (.directory denied)) (hfree : t.get? (above ++ [name]) = none)
    (hbytes : entry.bytes = []) :
    t.Grown (t.set (above ++ [name]) entry) := by
  have hget := get?_set_of_free h hfree entry
  have hsame : ∀ other entry', t.get? other = some entry' →
      (t.set (above ++ [name]) entry).get? other = some entry' := by
    intro other entry' hentry'
    rw [hget, if_neg, hentry']
    rintro rfl
    rw [hfree] at hentry'
    cases hentry'
  refine ⟨fun other entry' hentry' => by rw [hsame other entry' hentry', Option.map_some], ?_, ?_⟩
  · intro other last hsome
    have hdirectory : ∃ denied, t.get? other = some (.directory denied) := by
      rw [hget] at hsome
      split at hsome
      · next hlast =>
        rw [(List.append_inj' hlast rfl).1]
        exact ⟨denied, habove⟩
      · obtain ⟨entry', hentry'⟩ := Option.isSome_iff_exists.1 hsome
        simpa using h.exists_directory_dropLast hentry'
    obtain ⟨denied', hdirectory⟩ := hdirectory
    simp [isDirectoryAt, hsame other _ hdirectory, Entry.isDirectory]
  · intro other
    rw [bytesAt_eq, bytesAt_eq, hget]
    split
    · next hother =>
      rw [hother, hfree]
      exact hbytes
    · rfl

theorem get?_append_of_holds (h : t.Holds location) (bytes : Text.Utf8.Bytes) :
    ∃ entry entry', t.get? location = some entry ∧ entry'.shell = entry.shell ∧
      entry'.bytes = entry.bytes ++ bytes ∧ ∀ other,
        (t.append location bytes).get? other =
          if other = location then some entry' else t.get? other := by
  obtain ⟨entry, hentry, hdirectory, hne⟩ := h
  have hnil : location ≠ [] := by
    rintro rfl
    obtain ⟨denied, hroot⟩ := t.get?_root
    rw [hroot] at hentry
    obtain rfl := Option.some.inj hentry
    cases hdirectory
  have hcons : ∀ entry' other, (⟨(location, entry') :: t.entries⟩ : Tree).get? other =
      if other = location then some entry' else t.get? other := by
    intro entry' other
    split
    · next hsame =>
      rw [hsame, get?_of_ne_nil _ hnil]
      simp
    · next hother => simp only [get?, List.lookup_cons, beq_false_of_ne hother]
  unfold append
  rw [hentry]
  cases entry with
  | file old denied => exact ⟨_, .file (old ++ bytes) denied, rfl, rfl, rfl, hcons _⟩
  | pipe old => exact ⟨_, .pipe (old ++ bytes), rfl, rfl, rfl, hcons _⟩
  | directory denied => cases hdirectory
  | link target => exact absurd rfl (hne target)

theorem keeps_append (h : t.Holds location) (bytes : Text.Utf8.Bytes) :
    t.Keeps (t.append location bytes) := by
  obtain ⟨entry, entry', hentry, hshell, -, hget⟩ := get?_append_of_holds h bytes
  intro other old hold
  rw [hget]
  split
  · next hsame =>
    rw [hsame, hentry] at hold
    rw [← Option.some.inj hold, Option.map_some, hshell]
  · rw [hold, Option.map_some]

theorem closed_append (h : t.Holds location) (hclosed : t.Closed) (bytes : Text.Utf8.Bytes) :
    (t.append location bytes).Closed := by
  obtain ⟨entry, entry', hentry, -, -, hget⟩ := get?_append_of_holds h bytes
  intro above name hsome
  have hbefore : (t.get? (above ++ [name])).isSome := by
    rw [hget] at hsome
    split at hsome
    · next hsame => rw [hsame, hentry, Option.isSome_some]
    · exact hsome
  have hdirectory := hclosed above name hbefore
  unfold isDirectoryAt at hdirectory ⊢
  split at hdirectory
  · next old hold =>
    obtain ⟨denied, rfl⟩ : ∃ denied, old = .directory denied := by
      cases old <;> simp_all [Entry.isDirectory]
    rw [(keeps_append h bytes).get?_directory hold]
    exact hdirectory
  · cases hdirectory

theorem bytesAt_append (h : t.Holds location) (bytes : Text.Utf8.Bytes) (other : Location) :
    (t.append location bytes).bytesAt other =
      t.bytesAt other ++ if other = location then bytes else [] := by
  obtain ⟨entry, entry', hentry, -, hbytes, hget⟩ := get?_append_of_holds h bytes
  rw [bytesAt_eq, bytesAt_eq, hget]
  split
  · next hsame =>
    rw [hsame, hentry]
    exact hbytes
  · simp

end Tree

/-- The place that a look-up ended at, whether something stands there or not. -/
def Place.location : Place → Location
  | .existing location => location
  | .free directory name => directory ++ [name]

namespace Host

variable {host : Host} {tree tree' : Tree} {followLast : Bool} {links : Nat} {here : Location}
  {components : List Text} {location directory : Location} {name path : Text}

theorem free_of_walk
    (h : walk tree followLast links here components = .ok (.free directory name)) :
    tree.get? directory = some (.directory false) ∧ tree.get? (directory ++ [name]) = none := by
  fun_induction walk tree followLast links here components with
  | case2 _ _ _ _ _ ih => exact ih h
  | case4 | case5 | case12 | case13 =>
      rename_i ih
      exact ih h
  | case7 links here name denied hdir hne hdenied hdot hdotdot hlen hfree =>
      obtain ⟨rfl, rfl⟩ := Place.free.inj (Except.ok.inj h)
      obtain rfl : denied = false := by simpa using hdenied
      exact ⟨hdir, hfree⟩
  | _ => simp_all

theorem solid_of_walk (hclosed : tree.Closed) (hhere : tree.Solid here)
    (h : walk tree true links here components = .ok (.existing location)) :
    tree.Solid location := by
  generalize hfollow : true = followLast at h
  fun_induction walk tree followLast links here components with
  | case1 =>
      obtain rfl := Place.existing.inj (Except.ok.inj h)
      exact hhere
  | case2 _ _ _ _ _ ih => exact ih hhere h
  | case4 links here rest denied hdir hdenied hne ih => exact ih hhere h
  | case5 links here rest denied hdir hdenied hne hdot ih =>
      obtain ⟨_, habove⟩ := hclosed.exists_directory_dropLast hdir
      exact ih (Tree.solid_of_directory habove) h
  | case9 _ _ _ _ _ _ _ _ _ _ _ _ _ hlast =>
      exact absurd hfollow.symm hlast.2
  | case12 here name rest denied hdir hne hdenied hdot hdotdot hlen target hlink hlast links hcheck
      ih =>
      refine ih ?_ h
      unfold origin
      split
      · exact tree.solid_root
      · exact hhere
  | case13 links here name rest denied hdir hne hdenied hdot hdotdot hlen entry hsolid hentry ih =>
      exact ih ⟨entry, hentry, hsolid⟩ h
  | _ => simp_all

/-- A look-up that ended somewhere ends there in a tree that keeps what was there. Where it ended at
a free name, something must have come to stand. -/
theorem walk_of_keeps (hkeeps : tree.Keeps tree') {place : Place}
    (hfree : ∀ directory name, place = .free directory name → tree'.Solid (directory ++ [name]))
    (h : walk tree followLast links here components = .ok place) :
    walk tree' followLast links here components = .ok (.existing place.location) := by
  -- What the look-up found on its way is still there, so it goes on in the same way. Only at a free
  -- name, and at what stands behind it now, do the trees differ.
  fun_induction walk tree followLast links here components with
  | case1 =>
      obtain rfl := Except.ok.inj h
      rw [walk]
      rfl
  | case2 links here rest denied hdir ih =>
      rw [walk_slash (hkeeps.get?_directory hdir)]
      exact ih h
  | case4 links here rest denied hdir hdenied hne ih =>
      rw [walk]
      simpa [hkeeps.get?_directory hdir, hdenied, hne] using ih h
  | case5 links here rest denied hdir hdenied hne hdot ih =>
      rw [walk]
      simpa [hkeeps.get?_directory hdir, hdenied, hne, hdot] using ih h
  | case7 links here name denied hdir hne hdenied hdot hdotdot hlen hnone =>
      obtain rfl := Except.ok.inj h
      obtain ⟨entry, hentry, hsolid⟩ := hfree here name rfl
      rw [walk]
      simp only [hkeeps.get?_directory hdir, hdenied, hne, hdot, hdotdot, hlen, hentry, if_false]
      cases entry with
      | link target => exact absurd rfl (hsolid target)
      | file | directory | pipe =>
          rw [walk]
          rfl
  | case9 links here name rest denied hdir hne hdenied hdot hdotdot hlen target hlink hlast =>
      obtain rfl := Except.ok.inj h
      rw [walk]
      simp only [hkeeps.get?_directory hdir, hkeeps.get?_link hlink, hdenied, hne, hdot, hdotdot,
        hlen, if_pos hlast, if_false]
      rfl
  | case12 here name rest denied hdir hne hdenied hdot hdotdot hlen target hlink hlast links hcheck
      ih =>
      rw [walk]
      simp only [hkeeps.get?_directory hdir, hkeeps.get?_link hlink, hdenied, hne, hdot, hdotdot,
        hlen, hlast, hcheck, if_false]
      exact ih h
  | case13 links here name rest denied hdir hne hdenied hdot hdotdot hlen entry hsolid hentry ih =>
      obtain ⟨entry', hentry', hsolid'⟩ := hkeeps.solid ⟨entry, hentry, hsolid⟩
      rw [walk]
      simp only [hkeeps.get?_directory hdir, hdenied, hne, hdot, hdotdot, hlen, hentry', if_false]
      cases entry' with
      | link target => exact absurd rfl (hsolid' target)
      | file | directory | pipe => exact ih h
  | _ => simp_all

/-- Whether one host differs from the other by things without bytes that have come into being. -/
def GrownTo (host host' : Host) : Prop :=
  ∃ tree', host' = { host with tree := tree' } ∧ host.tree.Grown tree'

theorem GrownTo.refl (h : host.tree.Closed) : host.GrownTo host := ⟨host.tree, rfl, .refl h⟩

theorem GrownTo.trans {host' host'' : Host} (h : host.GrownTo host') (h' : host'.GrownTo host'') :
    host.GrownTo host'' := by
  obtain ⟨tree', rfl, hgrown⟩ := h
  obtain ⟨tree'', rfl, hgrown'⟩ := h'
  exact ⟨tree'', rfl, hgrown.trans hgrown'⟩

theorem workPlace_of_keeps (hkeeps : host.tree.Keeps tree') (h : host.workPlace = .ok location) :
    ({ host with tree := tree' } : Host).workPlace = .ok location := by
  unfold workPlace at h ⊢
  split at h
  · cases h
  · next hwork =>
    simpa [hwork] using h
  · next work hne hwork =>
    split at h
    · next there hlookup =>
      unfold lookupFrom at hlookup
      split at hlookup
      · cases hlookup
      · next hcheck =>
        have hthere := walk_of_keeps hkeeps (by simp) hlookup
        simpa [hwork, lookupFrom, hcheck, hthere, Place.location] using h
    · cases h
    · cases h

theorem solid_workPlace (hclosed : host.tree.Closed) (h : host.workPlace = .ok location) :
    host.tree.Solid location := by
  unfold workPlace at h
  split at h
  · cases h
  · obtain rfl := Except.ok.inj h
    exact host.tree.solid_root
  · split at h
    · next hlookup =>
      obtain rfl := Except.ok.inj h
      unfold lookupFrom at hlookup
      split at hlookup
      · cases hlookup
      · exact solid_of_walk hclosed host.tree.solid_root hlookup
    · cases h
    · cases h

/-- A look-up that ended at something ends there on the host that has grown, and one that ended at a
free name ends at what has come to stand there. -/
theorem lookup_of_keeps (hkeeps : host.tree.Keeps tree') {place : Place}
    (hfree : ∀ directory name, place = .free directory name → tree'.Solid (directory ++ [name]))
    (h : host.lookup followLast path = .ok place) :
    ({ host with tree := tree' } : Host).lookup followLast path =
      .ok (.existing place.location) := by
  unfold lookup at h ⊢
  split at h
  · cases h
  · next hcheck houtset =>
    have houtset' : ({ host with tree := tree' } : Host).outset path = host.outset path := by
      unfold outset at houtset ⊢
      split
      · rfl
      · next habs =>
        rw [if_neg habs] at houtset
        rw [houtset, workPlace_of_keeps hkeeps houtset]
    rw [hcheck, houtset', houtset]
    exact walk_of_keeps hkeeps hfree h
  · cases h

theorem solid_of_lookup (hclosed : host.tree.Closed)
    (h : host.lookup true path = .ok (.existing location)) : host.tree.Solid location := by
  unfold lookup at h
  split at h
  · cases h
  · next houtset =>
    refine solid_of_walk hclosed ?_ h
    unfold outset at houtset
    split at houtset
    · obtain rfl := Except.ok.inj houtset
      exact host.tree.solid_root
    · exact solid_workPlace hclosed houtset
  · cases h

theorem free_of_lookup (h : host.lookup followLast path = .ok (.free directory name)) :
    host.tree.get? directory = some (.directory false) ∧
      host.tree.get? (directory ++ [name]) = none := by
  unfold lookup at h
  split at h
  · cases h
  · exact free_of_walk h
  · cases h

/-- A log file that has been opened is the file or the pipe that its path leads to. If it was not
there before, it is empty. -/
theorem openLog_grownTo (hclosed : host.tree.Closed) {host' : Host}
    (h : host.openLog path = .ok (host', location)) :
    host.GrownTo host' ∧ host'.tree.Holds location ∧
      host'.lookup true path = .ok (.existing location) := by
  have h := request_eq_ok h
  -- The look-up fails, or a file comes into being at a free name, or one stands there already.
  split at h
  · cases h
  · next directory name hlookup =>
    obtain ⟨hdirectory, hfree⟩ := free_of_lookup hlookup
    obtain ⟨rfl, rfl⟩ := Prod.mk.inj (Except.ok.inj h)
    have hne := Tree.ne_nil_of_get?_eq_none hfree
    have hfile := host.tree.get?_set_self hne (.file [] false)
    have hgrown : host.tree.Grown (host.tree.set (directory ++ [name]) (.file [] false)) :=
      Tree.grown_set hclosed hdirectory hfree rfl
    have hplace : ∀ directory' name', Place.free directory name = .free directory' name' →
        (host.tree.set (directory ++ [name]) (.file [] false)).Solid (directory' ++ [name']) := by
      rintro _ _ ⟨rfl, rfl⟩
      exact ⟨_, hfile, by simp⟩
    exact ⟨⟨_, rfl, hgrown⟩, ⟨_, hfile, rfl, by simp⟩, lookup_of_keeps hgrown.keeps hplace hlookup⟩
  · next hlookup =>
    have hsolid := solid_of_lookup hclosed hlookup
    split at h
    · cases h
    · cases h
    · next hdenied hdirectory =>
      obtain ⟨rfl, rfl⟩ := Prod.mk.inj (Except.ok.inj h)
      obtain ⟨entry, hentry, hne⟩ := hsolid
      refine ⟨.refl hclosed, ⟨entry, hentry, ?_, hne⟩, hlookup⟩
      cases entry with
      | directory denied => exact absurd hentry (hdirectory denied)
      | file | link | pipe => rfl

theorem makeEntry_grownTo (hclosed : host.tree.Closed) {host' : Host}
    (h : host.makeEntry path = .ok host') : host.GrownTo host' := by
  simp only [makeEntry, bind, Except.bind] at h
  split at h
  · cases h
  · split at h
    · cases h
    · split at h
      · cases h
      · split at h
        · cases h
        · next above _ =>
          split at h
          · next denied hdirectory =>
            split at h
            · cases h
            · next hnew =>
              split at h
              · cases h
              · split at h
                · cases h
                · obtain rfl := Except.ok.inj h
                  have hfree := Option.not_isSome_iff_eq_none.1 fun hsome => hnew (.inr hsome)
                  exact ⟨_, rfl, Tree.grown_set hclosed hdirectory hfree rfl⟩
          · cases h

theorem makeDirectory_grownTo (hclosed : host.tree.Closed) {host' : Host}
    (h : host.makeDirectory path = .ok host') : host.GrownTo host' := by
  unfold makeDirectory at h
  split at h
  · next made hmade =>
    obtain rfl := Except.ok.inj h
    exact makeEntry_grownTo hclosed hmade
  · cases h

theorem acceptDirectory_snd (host : Host) (path : Text) (fault : Fault) :
    (host.acceptDirectory path fault).2 = host := by
  unfold acceptDirectory
  split
  · split
    · rfl
    · split <;> rfl
  · rfl

/-- Also where not all directories could be made, the host has only grown. -/
theorem makeDirectories_grownTo (hclosed : host.tree.Closed) (path : Path.Plain) :
    host.GrownTo (host.makeDirectories path).2 := by
  fun_induction makeDirectories host path with
  | case1 path made hmade => exact makeDirectory_grownTo hclosed hmade
  | case2 path _ _ _ _ fault above habove _ ih =>
      rw [habove] at ih
      exact ih
  | case3 path _ _ _ _ above habove made hmade _ ih =>
      rw [habove] at ih
      obtain ⟨tree', rfl, hgrown⟩ := ih
      exact .trans ⟨tree', rfl, hgrown⟩ (makeDirectory_grownTo hgrown.closed hmade)
  | case4 path _ _ _ _ above habove fault _ _ ih =>
      rw [habove] at ih
      rwa [acceptDirectory_snd]
  | case5 path fault _ _ =>
      rw [acceptDirectory_snd]
      exact .refl hclosed

end Host

end SourceLoader
