import ImportAtlas.Proofs.Order
import ImportAtlas.Proofs.Path.Canonical
import ImportAtlas.Proofs.Text.Utf8
import ImportAtlas.Workspace.Basic

/-!
# The walk and the filter

The walk passes over hidden and excluded names on its way down, and the filter looks for such names in
a finished path. Each has a test of its own for the bytes of a name, and the two tests agree on names
that are texts. So both follow one rule: the walk lists those entries below the root, reached through
directories that can be read and not through links, that the filter does not ignore.

The rule has two limits. A directory whose path is too long for the system cannot be read, so nothing
below it is listed. And on a name that is no text the two tests can differ.

The walk goes down a bounded number of levels. The bound is never met, since the places on a way are
different places of the disk.

Main definitions:

* `ImportAtlas.isSkipped` — the names that are hidden or excluded;
* `ImportAtlas.Disk.Below` — the ways down from a directory, through directories only;
* `ImportAtlas.Site.Below` — the entries below a root, reached through directories that can be read.

Main results:

* `ImportAtlas.passesOver_encode`, `ImportAtlas.PathFilter.ignoresName_encode` — the tests of the walk and
  of the filter agree on texts;
* `ImportAtlas.Disk.Below.length_le` — no way is longer than the table of entries;
* `ImportAtlas.Disk.mem_namesBelow` — the ways that the walk goes;
* `ImportAtlas.PathFilter.ignores_toPath_append` — which places below the root the filter ignores;
* `ImportAtlas.Workspace.mem_files_reload_iff_not_ignored` — **the walk lists what the filter does not
  ignore**;
* `ImportAtlas.Workspace.unlisted_below_unread` — a file that is not listed, since the path of its
  directory is too long.
-/

set_option autoImplicit false

namespace ImportAtlas

/-! ### Names to be passed over -/

/-- Names that start with a dot are hidden. -/
def isHidden (name : String) : Bool := name.toList.head? = some '.'

/-- Whether a name is hidden or excluded. -/
def isSkipped (exclude : List String) (name : String) : Bool :=
  isHidden name || exclude.contains name

/-- The walk passes over those texts that are hidden or excluded. -/
theorem passesOver_encode (exclude : List String) (name : String) :
    passesOver exclude (Text.encode name) = isSkipped exclude name := by
  rw [passesOver, Text.decode?_encode, Option.any_some, isSkipped, isHidden,
    decide_eq_decide.2 (Text.head?_encode_eq_dot_iff name)]

/-- The filter ignores those texts that are hidden or excluded. -/
theorem PathFilter.ignoresName_encode (f : PathFilter) (name : String) :
    f.ignoresName (Text.encode name) = isSkipped f.exclude name := by
  rw [ignoresName, Text.decodeLossy_encode]
  rfl

namespace Disk

/-! ### The ways down -/

/-- A way down from a directory: an entry stands at its end, and a directory at each place before. -/
structure Below (d : Disk) (dir : RealPath) (way : RealPath) : Prop where
  ne_nil : way ≠ []
  through : ∀ q, q <+: way → q ≠ [] → q ≠ way → d.entry? (dir ++ q) = some .directory
  entry : ∃ e, d.entry? (dir ++ way) = some e

/-- At each place of a way stands an entry. -/
theorem Below.exists_entry {d : Disk} {dir way q : RealPath} (h : d.Below dir way)
    (hq : q <+: way) (hne : q ≠ []) : ∃ e, d.entry? (dir ++ q) = some e := by
  by_cases hway : q = way
  · rw [hway]
    exact h.entry
  · exact ⟨.directory, h.through q hq hne hway⟩

/-- A way is a name in the directory, alone or followed by a way down from there. -/
theorem below_cons_iff {d : Disk} {dir : RealPath} {n : Name} {rest : RealPath} :
    d.Below dir (n :: rest) ↔ ∃ e, d.entry? (dir ++ [n]) = some e ∧
      (rest = [] ∨ e = .directory ∧ d.Below (dir ++ [n]) rest) := by
  constructor
  · intro h
    obtain ⟨e, he⟩ := h.exists_entry (q := [n]) (by simp) (by simp)
    refine ⟨e, he, ?_⟩
    by_cases hrest : rest = []
    · exact .inl hrest
    · -- the way goes on, so a directory stands at its first name
      have hdir := h.through [n] (by simp) (by simp) (by simpa using Ne.symm hrest)
      rw [he] at hdir
      refine .inr ⟨Option.some.inj hdir, hrest, ?_, ?_⟩
      · intro q hq hne hway
        simpa using h.through (n :: q) (by simpa using hq) (by simp) (by simpa using hway)
      · simpa using h.entry
  · rintro ⟨e, he, rfl | ⟨rfl, h⟩⟩
    · refine ⟨by simp, ?_, e, he⟩
      intro q hq hne hway
      rcases List.prefix_cons_iff.1 hq with hnil | ⟨q', rfl, hq'⟩
      · exact absurd hnil hne
      · exact absurd (by rw [List.prefix_nil.1 hq']) hway
    · refine ⟨by simp, ?_, by simpa using h.entry⟩
      intro q hq hne hway
      rcases List.prefix_cons_iff.1 hq with hnil | ⟨q', rfl, hq'⟩
      · exact absurd hnil hne
      · by_cases hnil : q' = []
        · rw [hnil]
          exact he
        · simpa using h.through q' hq' hnil (by simpa using hway)

/-- No way is longer than the table of entries. -/
theorem Below.length_le {d : Disk} {dir way : RealPath} (h : d.Below dir way) :
    way.length ≤ d.entries.length := by
  -- the places on the way have different lengths, and each of them is in the table
  let places := (List.range way.length).map fun k => dir ++ way.take (k + 1)
  have hnodup : places.Nodup := by
    refine List.Nodup.map_on ?_ List.nodup_range
    intro j hj k hk hjk
    rw [List.mem_range] at hj hk
    have hlen := congrArg List.length (List.append_cancel_left hjk)
    rw [List.length_take, List.length_take] at hlen
    omega
  have hsub : places ⊆ d.entries.map Prod.fst := by
    intro p hp
    obtain ⟨k, hk, rfl⟩ := List.mem_map.1 hp
    rw [List.mem_range] at hk
    have hne : way.take (k + 1) ≠ [] := by simp [h.ne_nil]
    obtain ⟨e, he⟩ := h.exists_entry (List.take_prefix (k + 1) way) hne
    exact List.mem_map.2 ⟨_, (entry?_eq_some_iff (by simp [h.ne_nil])).1 he, rfl⟩
  simpa [places] using hnodup.length_le_of_subset hsub

/-! ### The ways of the walk -/

theorem mem_children {d : Disk} {dir : RealPath} {n : Name} {e : Entry} :
    (n, e) ∈ d.children dir ↔ d.entry? (dir ++ [n]) = some e := by
  rw [entry?_eq_some_iff (by simp), children, List.mem_filterMap]
  constructor
  · rintro ⟨⟨p, e'⟩, hmem, h⟩
    dsimp only at h
    split at h
    · next hdir =>
        obtain ⟨m, hm, hme⟩ := Option.map_eq_some_iff.1 h
        cases hme
        rwa [← hdir, List.dropLast_append_getLast? n hm]
    · cases h
  · intro hmem
    exact ⟨(dir ++ [n], e), hmem, by simp⟩

/-- All directories on a way can be read, by the test for the ways to them. -/
def Readable (reads : RealPath → Bool) (way : RealPath) : Prop :=
  ∀ q, q <+: way → q ≠ [] → q ≠ way → reads q = true

/-- A way of one name goes through no directory, and a longer one goes on from its first name. -/
theorem readable_cons_iff {reads : RealPath → Bool} {n : Name} {rest : RealPath} :
    Readable reads (n :: rest) ↔
      rest = [] ∨ reads [n] = true ∧ Readable (fun way => reads (n :: way)) rest := by
  constructor
  · intro h
    by_cases hrest : rest = []
    · exact .inl hrest
    · refine .inr ⟨h [n] (by simp) (by simp) (by simpa using Ne.symm hrest), ?_⟩
      intro q hq _ hway
      exact h (n :: q) (by simpa using hq) (by simp) (by simpa using hway)
  · rintro h q hq hne hway
    rcases List.prefix_cons_iff.1 hq with hnil | ⟨q', rfl, hq'⟩
    · exact absurd hnil hne
    · rcases h with rfl | ⟨hfirst, hothers⟩
      · exact absurd (by rw [List.prefix_nil.1 hq']) hway
      · by_cases hnil : q' = []
        · rw [hnil]
          exact hfirst
        · exact hothers q' hq' hnil (by simpa using hway)

/-- One level of the walk. -/
theorem mem_namesBelow_succ {d : Disk} {skip : Name → Bool} {depth : Nat}
    {reads : RealPath → Bool} {dir way : RealPath} :
    way ∈ d.namesBelow skip (depth + 1) reads dir ↔
      ∃ n rest e, way = n :: rest ∧ skip n = false ∧ d.entry? (dir ++ [n]) = some e ∧
        (rest = [] ∨ (e = .directory ∧ reads [n] = true) ∧
          rest ∈ d.namesBelow skip depth (fun way => reads (n :: way)) (dir ++ [n])) := by
  rw [namesBelow, List.mem_flatMap]
  constructor
  · rintro ⟨⟨n, e⟩, hchild, h⟩
    have he := mem_children.1 hchild
    dsimp only at h
    split at h
    · cases h
    · next hskip =>
        rw [Bool.not_eq_true] at hskip
        split at h
        · next henters =>
            rcases List.mem_cons.1 h with rfl | h
            · exact ⟨n, [], e, rfl, hskip, he, .inl rfl⟩
            · obtain ⟨rest, hrest, rfl⟩ := List.mem_map.1 h
              exact ⟨n, rest, e, rfl, hskip, he, .inr ⟨henters, hrest⟩⟩
        · exact ⟨n, [], e, List.mem_singleton.1 h, hskip, he, .inl rfl⟩
  · rintro ⟨n, rest, e, rfl, hskip, he, h⟩
    refine ⟨(n, e), mem_children.2 he, ?_⟩
    dsimp only
    rw [if_neg (by simp [hskip])]
    rcases h with rfl | ⟨henters, hrest⟩
    · split <;> simp
    · rw [if_pos henters]
      simp [hrest]

/-- The walk goes all ways down through directories that can be read, if they are short enough and no
name on them is passed over. -/
theorem mem_namesBelow {d : Disk} {skip : Name → Bool} {depth : Nat} {reads : RealPath → Bool}
    {dir way : RealPath} :
    way ∈ d.namesBelow skip depth reads dir ↔
      d.Below dir way ∧ Readable reads way ∧ way.length ≤ depth ∧ ∀ n ∈ way, skip n = false := by
  -- one level of the walk goes with one name of the way
  induction depth generalizing reads dir way with
  | zero =>
      constructor
      · intro h
        cases h
      · rintro ⟨h, -, hlen, -⟩
        exact absurd (List.eq_nil_of_length_eq_zero (Nat.le_zero.1 hlen)) h.ne_nil
  | succ depth ih =>
      rw [mem_namesBelow_succ]
      constructor
      · rintro ⟨n, rest, e, rfl, hskip, he, rfl | ⟨⟨rfl, hreads⟩, hrest⟩⟩
        · exact ⟨below_cons_iff.2 ⟨e, he, .inl rfl⟩, readable_cons_iff.2 (.inl rfl), by simp,
            by simpa using hskip⟩
        · obtain ⟨hbelow, hreadable, hlen, hskips⟩ := ih.1 hrest
          exact ⟨below_cons_iff.2 ⟨.directory, he, .inr ⟨rfl, hbelow⟩⟩,
            readable_cons_iff.2 (.inr ⟨hreads, hreadable⟩), by simpa using hlen,
            List.forall_mem_cons.2 ⟨hskip, hskips⟩⟩
      · rintro ⟨h, hreadable, hlen, hskips⟩
        obtain ⟨n, rest, rfl⟩ := List.exists_cons_of_ne_nil h.ne_nil
        obtain ⟨hskip, hskips⟩ := List.forall_mem_cons.1 hskips
        obtain ⟨e, he, rfl | ⟨hdir, hbelow⟩⟩ := below_cons_iff.1 h
        · exact ⟨n, [], e, rfl, hskip, he, .inl rfl⟩
        · obtain ⟨hreads, hothers⟩ := (readable_cons_iff.1 hreadable).resolve_left hbelow.ne_nil
          exact ⟨n, rest, e, rfl, hskip, he,
            .inr ⟨⟨hdir, hreads⟩, ih.2 ⟨hbelow, hothers, by simpa using hlen, hskips⟩⟩⟩

end Disk

/-! ### The filter -/

/-- What lies below a place is told from it by the names below it. -/
theorem RealPath.below?_toPath_append (p names : RealPath) :
    (toPath (p ++ names)).below? (toPath p) = some (names.map .name) := by
  rw [Path.below?, components_toPath, components_toPath, List.map_append, ← List.cons_append, if_pos,
    List.drop_left]
  exact List.isPrefixOf_iff_prefix.2 (List.prefix_append _ _)

/-- Below the root, the filter ignores those places with a name to be passed over on the way. -/
theorem PathFilter.ignores_toPath_append (root way : RealPath) (exclude : List String) :
    (⟨RealPath.toPath root, exclude⟩ : PathFilter).ignores (RealPath.toPath (root ++ way)) = false ↔
      ∀ n ∈ way, isSkipped exclude n.text = false := by
  rw [ignores, RealPath.below?_toPath_append]
  simp [skips, ignoresName_encode]

/-! ### The list of files -/

/-- The entries below a root: the root leads to a directory, there is a way down from there, and each
directory on the way can be read by its path. -/
def Site.Below (s : Site) (root e : RealPath) : Prop :=
  ∃ dir way, s.find (RealPath.toPath root) = .ok (dir, .directory) ∧ s.disk.Below dir way ∧
    Disk.Readable (fun q => s.isDirectory (RealPath.toPath (root ++ q))) way ∧ e = root ++ way

theorem Site.Below.exists_root {s : Site} {root e : RealPath} (h : s.Below root e) :
    s.exists? (RealPath.toPath root) = true := by
  obtain ⟨dir, way, hdir, -⟩ := h
  rw [exists?, hdir]

theorem Site.value_walk {s : Site} {exclude : List String} {root dir : RealPath}
    (h : s.find (RealPath.toPath root) = .ok (dir, .directory)) :
    (s.walk exclude root).value =
      Order.sortedSet
        ((s.disk.namesBelow (fun name => isSkipped exclude name.text) (s.disk.entries.length + 1)
          (fun way => s.isDirectory (RealPath.toPath (root ++ way))) dir).map
          fun way => s.ref (RealPath.toPath (root ++ way)) (RealPath.toPath root)) := by
  simp only [walk, h, passesOver_encode, Logged.value_bind, Logged.value_pure]

theorem Site.value_walk_eq_nil {s : Site} {exclude : List String} {root : RealPath}
    (h : ∀ dir, s.find (RealPath.toPath root) ≠ .ok (dir, .directory)) :
    (s.walk exclude root).value = [] := by
  rw [walk]
  split
  · rfl
  · next dir hfind => exact absurd hfind (h dir)
  · rfl

/-- The walk lists the entries below the root that the filter does not ignore. -/
theorem Site.mem_walk {s : Site} {exclude : List String} {root : RealPath} {r : FileRef} :
    r ∈ (s.walk exclude root).value ↔
      ∃ e, s.Below root e ∧
        (⟨RealPath.toPath root, exclude⟩ : PathFilter).ignores (RealPath.toPath e) = false ∧
        r = s.ref (RealPath.toPath e) (RealPath.toPath root) := by
  by_cases hroot : ∃ dir, s.find (RealPath.toPath root) = .ok (dir, .directory)
  · obtain ⟨place, hfind⟩ := hroot
    rw [value_walk hfind, Order.mem_sortedSet, List.mem_map]
    constructor
    · rintro ⟨way, hway, rfl⟩
      obtain ⟨hbelow, hreadable, -, hskips⟩ := Disk.mem_namesBelow.1 hway
      exact ⟨root ++ way, ⟨place, way, hfind, hbelow, hreadable, rfl⟩,
        (PathFilter.ignores_toPath_append root way exclude).2 hskips, rfl⟩
    · rintro ⟨e, ⟨dir, way, hdir, hbelow, hreadable, rfl⟩, hignores, rfl⟩
      obtain rfl : place = dir := by simpa [hfind] using hdir
      have hskips := (PathFilter.ignores_toPath_append root way exclude).1 hignores
      -- the bound on the depth leaves room for every way
      have hlen := Nat.le_succ_of_le hbelow.length_le
      exact ⟨way, Disk.mem_namesBelow.2 ⟨hbelow, hreadable, hlen, hskips⟩, rfl⟩
  · rw [value_walk_eq_nil (not_exists.1 hroot)]
    constructor
    · intro h
      cases h
    · rintro ⟨e, ⟨dir, way, hdir, -⟩, -⟩
      exact absurd ⟨dir, hdir⟩ hroot

-- A hidden name and an excluded one are passed over, and a link is listed as the place it leads to.
example :
    (Site.walk ⟨{ entries :=
          [(.of ["p"], .directory), (.of ["p", "a"], .directory), (.of ["p", "a", "x"], .file []),
            (.of ["p", "a", "out"], .file []), (.of ["p", ".b"], .directory),
            (.of ["p", ".b", "y"], .file []), (.of ["p", "l"], .link ⟨"/q"⟩), (.of ["q"], .directory), (.of ["q", "z"], .file [])] }, []⟩
        ["out"] (.of ["p"])).value.map FileRef.abs =
      [.of ["p", "a"], .of ["p", "a", "x"], .of ["q"]] := by
  decide +kernel

theorem Site.inOrder_walk (s : Site) (exclude : List String) (root : RealPath) :
    Order.InOrder (s.walk exclude root).value := by
  rw [walk]
  split
  · exact Order.inOrder_nil
  · exact Order.inOrder_sortedSet _
  · exact Order.inOrder_nil

namespace Workspace

/-- A reload replaces the list of files by what the walk finds, and changes nothing else. -/
theorem value_reload (s : Site) (w : Workspace) :
    (w.reload s).value.1 =
      { w with files := (s.walk w.config.excludeFiles (w.rootDir s)).value } := rfl

/-- **The walk lists what the filter does not ignore.** After a reload, the files are the references for
those entries below the root, reached through directories that can be read, that the filter lets through,
in order and without repetitions. If the root leads nowhere, there are none. -/
theorem mem_files_reload_iff_not_ignored (s : Site) (w : Workspace) :
    (∀ r, r ∈ (w.reload s).value.1.files ↔
      ∃ e, s.Below (w.rootDir s) e ∧ (w.filter s).ignores (RealPath.toPath e) = false ∧
        r = s.ref (RealPath.toPath e) (w.rootPath s)) ∧
    Order.InOrder (w.reload s).value.1.files ∧
    (s.exists? (w.rootPath s) = false → (w.reload s).value.1.files = []) := by
  rw [value_reload]
  refine ⟨fun r => Site.mem_walk, s.inOrder_walk _ _, ?_⟩
  intro hroot
  refine List.eq_nil_iff_forall_not_mem.2 ?_
  intro r hr
  obtain ⟨e, hbelow, -⟩ := Site.mem_walk.1 hr
  exact absurd hroot (by simp [rootPath, hbelow.exists_root])

/-! ### A directory that cannot be read -/

/-- A text as long as names may be. -/
def longText : String := String.ofList (List.replicate 255 'a')

theorem toList_longText : longText.toList = List.replicate 255 'a' := String.toList_ofList

/-- The name with that text. -/
def longName : Name where
  text := longText
  isName_text := by
    have hne : ∀ other : String, other.toList.length ≠ 255 → longText ≠ other := by
      rintro other hother rfl
      exact hother (by rw [toList_longText, List.length_replicate])
    refine isName_iff.2 ⟨hne _ (by decide), hne _ (by decide), hne _ (by decide), ?_⟩
    rw [toList_longText]
    intro hslash
    exact absurd (List.eq_of_mem_replicate hslash) (by decide)

/-- The place of a directory below so many others, all with that name but the first. -/
def deepPlace (k : Nat) : RealPath := RealPath.of ["p"] ++ List.replicate k longName

/-- The way from the first of sixteen such directories to a file in the last. -/
def deepWay : RealPath := List.replicate 16 longName ++ RealPath.of ["d"]

/-- The disk with that file and the directories above it. -/
def deepDisk : Disk where
  entries :=
    (RealPath.of ["p"] ++ deepWay, .file []) ::
      (List.range 17).map fun k => (deepPlace k, .directory)
  nodup_places := by
    -- the places have different numbers of names
    have hlength : ∀ k, (deepPlace k).length = k + 1 := by
      intro k
      simp [deepPlace, RealPath.of]
    rw [List.map_cons, List.map_map, List.nodup_cons]
    constructor
    · intro hmem
      obtain ⟨k, hk, hplace⟩ := List.mem_map.1 hmem
      have hk := List.mem_range.1 hk
      have hlength := (hlength k).symm.trans (congrArg List.length hplace)
      simp [deepWay, RealPath.of] at hlength
      omega
    · refine List.Nodup.map_on ?_ List.nodup_range
      intro j _ k _ hjk
      have hlength := (hlength j).symm.trans ((congrArg List.length hjk).trans (hlength k))
      omega

/-- The site with that disk, and a workspace for the first directory. -/
def deepSite : Site := ⟨deepDisk, []⟩

def deepWorkspace : Workspace := { dir := .of ["p", "w"] }

theorem entry?_deepPlace {k : Nat} (hk : k < 17) : deepDisk.entry? (deepPlace k) = some .directory :=
  (Disk.entry?_eq_some_iff (by simp [deepPlace, RealPath.of])).2
    (List.mem_cons_of_mem _ (List.mem_map.2 ⟨k, List.mem_range.2 hk, rfl⟩))

theorem entry?_deepDisk_ne_link (p : RealPath) (target : Path) :
    deepDisk.entry? p ≠ some (.link target) := by
  intro h
  by_cases hp : p = []
  · rw [hp] at h
    cases h
  · rcases List.mem_cons.1 ((Disk.entry?_eq_some_iff hp).1 h) with h | h
    · cases h
    · obtain ⟨k, -, hk⟩ := List.mem_map.1 h
      cases hk

theorem below_deepWay : deepDisk.Below (.of ["p"]) deepWay := by
  refine ⟨by simp [deepWay, RealPath.of], ?_, .file [], ?_⟩
  · intro q hq _ hway
    have hq : q <+: List.replicate 16 longName := (List.prefix_concat_iff.1 hq).resolve_left hway
    obtain ⟨hlength, hnames⟩ := List.prefix_replicate_iff.1 hq
    rw [hnames]
    exact entry?_deepPlace (Nat.lt_succ_of_le hlength)
  · exact (Disk.entry?_eq_some_iff (by simp [RealPath.of])).2 (by simp [deepDisk])

/-- The path of the last directory is longer than the system takes. -/
theorem not_isDirectory_deepPlace : deepSite.isDirectory (RealPath.toPath (deepPlace 16)) = false := by
  have hsize : (RealPath.text (deepPlace 16)).utf8ByteSize = 4098 := by decide +kernel
  rw [Bool.eq_false_iff]
  intro hdirectory
  obtain ⟨place, hfind⟩ := Site.isDirectory_iff.1 hdirectory
  obtain ⟨hspellable, -⟩ :=
    Site.realPath_toPath_iff.1 (Site.realPath_eq_ok_iff.2 ⟨_, hfind⟩)
  have hlimit := hspellable.2
  rw [hsize] at hlimit
  exact absurd hlimit (by decide)

theorem canonicalize_deepSite (p : RealPath) : deepSite.canonicalize (RealPath.toPath p) = p := by
  refine Site.canonicalize_toPath_eq_iff.2 ?_
  intro q target _ hlink
  exact absurd hlink (entry?_deepDisk_ne_link q target)

/-- **The walk does not enter a directory that it cannot read.** A file is reached through directories
only, and the filter does not ignore it, but it is not listed, since the path of its directory is too
long. And a name that is no text is passed over by the filter alone, if the text that it is shown as is
excluded. -/
theorem unlisted_below_unread :
    deepWorkspace.rootDir deepSite = .of ["p"] ∧ deepDisk.Below (.of ["p"]) deepWay ∧
      (deepWorkspace.filter deepSite).ignores (RealPath.toPath (.of ["p"] ++ deepWay)) = false ∧
      deepSite.ref (RealPath.toPath (.of ["p"] ++ deepWay)) (deepWorkspace.rootPath deepSite) ∉
        (deepWorkspace.reload deepSite).value.1.files ∧
      passesOver ["\uFFFD"] [0xff] = false ∧
      (⟨RealPath.toPath (.of ["p"]), ["\uFFFD"]⟩ : PathFilter).ignoresName [0xff] = true := by
  have hroot : deepWorkspace.rootDir deepSite = .of ["p"] := rfl
  have hfilter : deepWorkspace.filter deepSite = ⟨RealPath.toPath (.of ["p"]), []⟩ := rfl
  have hskips : ∀ n ∈ deepWay, isSkipped [] n.text = false := by
    intro n hn
    rcases List.mem_append.1 hn with hn | hn
    · rw [List.eq_of_mem_replicate hn, longName, isSkipped, isHidden, toList_longText]
      rfl
    · rw [List.mem_singleton.1 hn]
      decide
  refine ⟨hroot, below_deepWay, ?_, ?_, by decide, by decide⟩
  · rw [hfilter, PathFilter.ignores_toPath_append]
    exact hskips
  · -- no other entry is listed as the file, and to be listed itself it must be below what is read
    rw [value_reload, Site.mem_walk, rootPath, hroot]
    rintro ⟨e, ⟨dir, way, -, hbelow, hreadable, rfl⟩, -, href⟩
    have habs := congrArg FileRef.abs href
    rw [Site.abs_ref_toPath, Site.abs_ref_toPath, canonicalize_deepSite, canonicalize_deepSite,
      List.append_cancel_left_eq] at habs
    subst habs
    have hread : deepSite.isDirectory (RealPath.toPath (deepPlace 16)) = true :=
      hreadable (List.replicate 16 longName) (List.prefix_append _ _) (by simp)
        (by simp [deepWay, RealPath.of])
    rw [not_isDirectory_deepPlace] at hread
    cases hread

end Workspace

end ImportAtlas
