import ImportAtlas.Proofs.Disk.Writing
import ImportAtlas.Proofs.Json.Written
import ImportAtlas.Proofs.Text.Utf8
import ImportAtlas.Workspace.Config

/-!
# Configurations are written and read back

What is read from a document is a well-formed configuration, and a well-formed configuration without
floating point numbers is read back from its own document. The members of a document that mean nothing
here are kept with their last values.

Main definitions:

* `ImportAtlas.Config.knownKeys` — the keys of the fields;
* `ImportAtlas.Config.Fit` — the configurations that can be read from documents;
* `ImportAtlas.Config.Sets` — the fields that are set.

Main results:

* `ImportAtlas.Config.parse_text` — **a configuration with integers only is read back**;
* `ImportAtlas.Config.fit_of_parse` — what was read is well formed;
* `ImportAtlas.Config.exists_members` — where the other members come from;
* `ImportAtlas.Config.load_of_save` — what was saved is loaded;
* `ImportAtlas.Config.loaded_config_survives_saving` — **loading, saving and loading again**.
-/

set_option autoImplicit false

namespace ImportAtlas.Config

open Json

/-- The keys of the fields. -/
def knownKeys : List String :=
  ["root_dir", "exclude_files", "python_path", "open_files", "editor_options"]

/-- A configuration whose members are in order, whose numbers have a property and whose values are not too
deep for a document; none of the other members has the key of a field. -/
structure Fit (N : Number → Prop) (c : Config) : Prop where
  editorOptions : c.editorOptions.Fit N (depthLimit - 3)
  extra : c.extra.Fit N (depthLimit - 2)
  foreign : ∀ field ∈ c.extra, field.1 ∉ knownKeys

/-- The numbers in a configuration. -/
def numbers (c : Config) : List Number := numbersOfFields c.editorOptions ++ numbersOfFields c.extra

/-- In a well-formed configuration without floating point numbers, all numbers are integers. -/
theorem Fit.isInteger {c : Config} (h : c.Fit Number.InRange)
    (hreal : ∀ n ∈ c.numbers, n.isReal = false) : c.Fit Number.IsInteger where
  editorOptions := by
    refine ⟨h.editorOptions.1, fun field hfield => (h.editorOptions.2 field hfield).isInteger ?_⟩
    exact fun n hn => hreal n (List.mem_append_left _ (mem_numbersOfFields.2 ⟨field, hfield, hn⟩))
  extra := by
    refine ⟨h.extra.1, fun field hfield => (h.extra.2 field hfield).isInteger ?_⟩
    exact fun n hn => hreal n (List.mem_append_right _ (mem_numbersOfFields.2 ⟨field, hfield, hn⟩))
  foreign := h.foreign

/-! ### Reading what was written -/

/-- The fields that have been read when the document of a configuration has been read. -/
def draft (c : Config) : Draft where
  rootDir := c.rootDir.map some
  excludeFiles := if c.excludeFiles = [] then none else some c.excludeFiles
  pythonPath := if c.pythonPath = [] then none else some c.pythonPath
  openFiles := if c.openFiles = [] then none else some c.openFiles
  editorOptions := if c.editorOptions = [] then none else some c.editorOptions
  extra := c.extra

theorem getD_ite_eq_nil {α : Type} [DecidableEq α] (l : List α) :
    (if l = [] then none else some l).getD [] = l := by
  split
  · next h => rw [h]; rfl
  · rfl

theorem finish_draft (c : Config) : c.draft.finish = c := by
  have hroot : (c.rootDir.map some).getD none = c.rootDir := by cases c.rootDir <;> rfl
  simp only [draft, Draft.finish, getD_ite_eq_nil, hroot]

theorem readMember_foreign {key : String} (h : key ∉ knownKeys) (d : Draft) :
    readMember d key = do
      readColon
      return { d with extra := d.extra.insert key (← readValue (depthLimit - 1)) } := by
  unfold readMember
  split
  case h_6 => rfl
  all_goals exact absurd (by decide) h

theorem yields_readOnce {α : Type} {before : Option α} (hbefore : before = none) {reader : Reader α}
    {text rest : List Char} {a : α} (key : String) (h : reader.Yields text a rest) :
    (readOnce key before reader).Yields (':' :: text) (some a) rest := by
  subst hbefore
  exact (yields_readColon _).bind (h.bind (yields_pure _ _))

/-- A field is written only if it is set. -/
theorem takes_ite {p : Prop} [Decidable p] {key : String} {value : Json} {d d' : Draft}
    (hskip : p → d = d')
    (hmember : ¬p → ∀ rest, EndsNumeral rest →
      (readMember d key).Yields (':' :: ' ' :: (writeAt 1 value ++ rest)) d' rest) :
    Takes readMember 1 d (if p then [] else [(key, value)]) d' := by
  split
  · next h =>
      rw [hskip h]
      exact .nil _
  · next h => exact .cons (hmember h) (.nil _)

theorem yields_readPath? (p : Path) {rest : List Char} (hrest : EndsNumeral rest) :
    readPath?.Yields (' ' :: (writeString p.text ++ rest)) (some p) rest := by
  have htext := (recovers_readText p.text "path string").yields rest hrest
  refine Reader.Yields.blank ((yields_skipBlanks ?_).bind ((yields_peek _).bind ?_))
  · rintro c ⟨⟩
    rfl
  · exact htext.bind (yields_pure _ _)

theorem yields_readTexts (level : Nat) (texts : List String) (expected : String) {rest : List Char}
    (hrest : EndsNumeral rest) :
    (readTexts expected).Yields (' ' :: (writeAt level (.array (texts.map .string)) ++ rest)) texts rest :=
  ((recovers_readTexts level texts expected).yields rest hrest).blank

section

variable {d : Draft}

theorem takes_rootDir (hd : d.rootDir = none) (root : Option Path) :
    Takes readMember 1 d (root.map fun p => ("root_dir", Json.string p.text)).toList
      { d with rootDir := root.map some } := by
  cases root with
  | none =>
      rw [Option.map_none, Option.map_none, ← hd]
      exact .nil d
  | some p =>
      refine .cons (fun rest hrest => ?_) (.nil _)
      exact (yields_readOnce hd "root_dir" (yields_readPath? p hrest)).bind (yields_pure _ _)

theorem takes_excludeFiles (hd : d.excludeFiles = none) (names : List String) :
    Takes readMember 1 d (textsMember "exclude_files" names)
      { d with excludeFiles := if names = [] then none else some names } := by
  refine takes_ite (fun h => by rw [if_pos h, ← hd]) fun h rest hrest => ?_
  rw [if_neg h]
  exact (yields_readOnce hd "exclude_files" (yields_readTexts 1 names "a string" hrest)).bind
    (yields_pure _ _)

theorem takes_pythonPath (hd : d.pythonPath = none) (dirs : List Path) :
    Takes readMember 1 d (textsMember "python_path" (dirs.map Path.text))
      { d with pythonPath := if dirs = [] then none else some dirs } := by
  refine takes_ite (fun h => by rw [if_pos (List.map_eq_nil_iff.1 h), ← hd]) fun h rest hrest => ?_
  have hdirs : (dirs.map Path.text).map Path.mk = dirs := by simp [Function.comp_def]
  have hread : Reader.Yields (do return (← readTexts "path string").map Path.mk)
      (' ' :: (writeAt 1 (.array ((dirs.map Path.text).map .string)) ++ rest)) dirs rest := by
    refine (yields_readTexts 1 (dirs.map Path.text) "path string" hrest).bind ?_
    rw [hdirs]
    exact yields_pure _ _
  rw [if_neg (mt List.map_eq_nil_iff.2 h)]
  exact (yields_readOnce hd "python_path" hread).bind (yields_pure _ _)

theorem takes_openFiles (hd : d.openFiles = none) (files : List String) :
    Takes readMember 1 d (textsMember "open_files" files)
      { d with openFiles := if files = [] then none else some files } := by
  refine takes_ite (fun h => by rw [if_pos h, ← hd]) fun h rest hrest => ?_
  rw [if_neg h]
  exact (yields_readOnce hd "open_files" (yields_readTexts 1 files "a string" hrest)).bind
    (yields_pure _ _)

theorem takes_editorOptions (hd : d.editorOptions = none) {options : Fields}
    (hoptions : options.Fit Number.IsInteger (depthLimit - 3)) :
    Takes readMember 1 d (if options = [] then [] else [("editor_options", .object options)])
      { d with editorOptions := if options = [] then none else some options } := by
  refine takes_ite (fun h => by rw [if_pos h, ← hd]) fun h rest hrest => ?_
  have hread := ((recovers_readObject hoptions 1).yields rest hrest).blank
  rw [if_neg h]
  exact (yields_readOnce hd "editor_options" hread).bind (yields_pure _ _)

end

/-- Other members in order are read back one by one, each one to the end. -/
theorem takes_extra {d : Draft} {fields : Fields}
    (hfields : ∀ field ∈ fields, Fits Number.IsInteger (depthLimit - 2) field.2)
    (hforeign : ∀ field ∈ fields, field.1 ∉ knownKeys) (horder : (d.extra ++ fields).InOrder) :
    Takes readMember 1 d fields { d with extra := d.extra ++ fields } := by
  induction fields generalizing d with
  | nil =>
      rw [List.append_nil]
      exact .nil d
  | cons field fields ih =>
      obtain ⟨key, value⟩ := field
      obtain ⟨hvalue, hfields⟩ := List.forall_mem_cons.1 hfields
      obtain ⟨hkey, hforeign⟩ := List.forall_mem_cons.1 hforeign
      have hinsert : d.extra.insert key value = d.extra ++ [(key, value)] := by
        refine Fields.insert_eq_append (fun field hfield => ?_) value
        exact (List.pairwise_append.1 horder).2.2 field hfield (key, value) (by simp)
      have htail := ih (d := { d with extra := d.extra ++ [(key, value)] }) hfields hforeign
        (by simpa using horder)
      rw [List.append_assoc, List.singleton_append] at htail
      refine .cons (fun rest hrest => ?_) htail
      have hread := (recovers_readValue hvalue 1).yields rest hrest
      rw [readMember_foreign hkey, ← hinsert]
      exact (yields_readColon _).bind (Reader.Yields.bind hread.blank (yields_pure _ _))

/-- The members of a configuration are read one after the other. -/
theorem takes_members {c : Config} (hc : c.Fit Number.IsInteger) :
    Takes readMember 1 {} c.members c.draft := by
  have hroot := takes_rootDir (d := {}) rfl c.rootDir
  have hexclude := hroot.append (takes_excludeFiles rfl c.excludeFiles)
  have hpython := hexclude.append (takes_pythonPath rfl c.pythonPath)
  have hopen := hpython.append (takes_openFiles rfl c.openFiles)
  have heditor := hopen.append (takes_editorOptions rfl hc.editorOptions)
  exact heditor.append (takes_extra hc.extra.2 hc.foreign hc.extra.1)

/-- A configuration with integers only is read back from its document. -/
theorem parse_text {c : Config} (hc : c.Fit Number.IsInteger) : parse c.text = .ok c := by
  have hread := parseWith_write_object (takes_members hc) "struct WorkspaceConfig" Draft.finish
  rw [finish_draft] at hread
  exact hread

/-! ### What is read is a value -/

section

variable {i j : Input} {expected : String}

theorem reads_readValue_of_readText {s : String} (h : (readText expected).Reads i s j) (depth : Nat) :
    (readValue (depth + 1)).Reads i (.string s) j := by
  obtain ⟨hstart, hs⟩ := reads_readTyped.1 h
  exact reads_readValue_succ.2 (.string hstart hs)

theorem reads_readValue_of_readTexts {texts : List String} (h : (readTexts expected).Reads i texts j)
    (depth : Nat) : (readValue (depth + 2)).Reads i (.array (texts.map .string)) j := by
  obtain ⟨hstart, hitems⟩ := reads_readTyped.1 h
  refine reads_readValue_succ.2 (.array (Nat.succ_ne_zero _) hstart ?_)
  exact readItems_simulation (fun hs => reads_readValue_of_readText hs depth) (reads_withFuel.1 hitems)

theorem reads_readValue_of_readObject {depth : Nat} {fields : Fields}
    (h : (readObject (depth + 1)).Reads i fields j) :
    (readValue (depth + 2)).Reads i (.object fields) j := by
  obtain ⟨hstart, hfields⟩ := reads_readTyped.1 h
  exact reads_readValue_succ.2 (.object (Nat.succ_ne_zero _) hstart hfields)

theorem reads_readValue_of_readPath? {p : Option Path} (h : readPath?.Reads i p j) (depth : Nat) :
    (readValue (depth + 1)).Reads i (p.elim .null fun p => .string p.text) j := by
  rw [readPath?, reads_skipBlanks_bind, reads_peek_bind] at h
  split at h
  · next hc =>
      obtain ⟨_, hword, rfl⟩ := reads_skip_bind_pure.1 h
      exact reads_readValue_succ.2 (.word (by simp [words]) hc hword)
  · obtain ⟨s, hs, rfl⟩ := reads_bind_pure.1 h
    obtain ⟨hstart, hs⟩ := reads_readTyped.1 hs
    rw [trimmed_trimmed] at hstart hs
    exact reads_readValue_succ.2 (.string hstart hs)

end

theorem not_reads_failDuplicate {α : Type} {key : String} {i j : Input} {a : α} :
    ¬(failDuplicate key : Reader α).Reads i a j := by
  intro h
  rw [failDuplicate] at h
  obtain ⟨_, _, -, h⟩ := reads_bind.1 h
  obtain ⟨_, _, -, h⟩ := reads_bind.1 h
  split at h
  · obtain ⟨_, _, -, h⟩ := reads_bind.1 h
    exact not_reads_failHere h
  · exact not_reads_failHere h

/-- A field is read behind a colon, into its place in the draft. -/
theorem reads_readOnce {α : Type} {key : String} {before : Option α} {reader : Reader α}
    {f : Option α → Draft} {d : Draft} {i j : Input}
    (h : Reader.Reads (do return f (← readOnce key before reader)) i d j) :
    ∃ a k, readColon.Reads i () k ∧ reader.Reads k a j ∧ d = f (some a) := by
  obtain ⟨result, honce, rfl⟩ := reads_bind_pure.1 h
  rw [readOnce] at honce
  split at honce
  · exact absurd honce not_reads_failDuplicate
  · obtain ⟨k, a, hcolon, ha, rfl⟩ := reads_readColon_bind_pure.1 honce
    exact ⟨a, k, hcolon, ha, rfl⟩

/-- What a member with a value makes of a draft: if it is not a field, it is kept with this value;
otherwise the others stay as they are. -/
inductive Draft.Absorbs (d : Draft) (key : String) (value : Json) : Draft → Prop where
  | foreign (hkey : key ∉ knownKeys) : d.Absorbs key value { d with extra := d.extra.insert key value }
  | field {d' : Draft} (hkey : key ∈ knownKeys) (hextra : d'.extra = d.extra)
      (hoptions : ∀ options, d'.editorOptions = some options →
        d.editorOptions = some options ∨ key = "editor_options" ∧ value = .object options) :
      d.Absorbs key value d'

/-- Every member is read as a value, fields too. -/
theorem reads_readMember {d d' : Draft} {key : String} {i j : Input}
    (h : (readMember d key).Reads i d' j) :
    ∃ k value, readColon.Reads i () k ∧ (readValue (depthLimit - 1)).Reads k value j ∧
      d.Absorbs key value d' := by
  by_cases hkey : key ∈ knownKeys
  · -- the reader of a field accepts only some values, but reads them to the same end
    have hfield := hkey
    simp only [knownKeys, List.mem_cons, List.not_mem_nil, or_false] at hfield
    rcases hfield with rfl | rfl | rfl | rfl | rfl
    · obtain ⟨p, k, hcolon, hp, rfl⟩ := reads_readOnce h
      exact ⟨k, _, hcolon, reads_readValue_of_readPath? hp _, .field hkey rfl fun _ => .inl⟩
    · obtain ⟨texts, k, hcolon, htexts, rfl⟩ := reads_readOnce h
      exact ⟨k, _, hcolon, reads_readValue_of_readTexts htexts _, .field hkey rfl fun _ => .inl⟩
    · obtain ⟨paths, k, hcolon, hpaths, rfl⟩ := reads_readOnce h
      obtain ⟨texts, htexts, -⟩ := reads_bind_pure.1 hpaths
      exact ⟨k, _, hcolon, reads_readValue_of_readTexts htexts _, .field hkey rfl fun _ => .inl⟩
    · obtain ⟨texts, k, hcolon, htexts, rfl⟩ := reads_readOnce h
      exact ⟨k, _, hcolon, reads_readValue_of_readTexts htexts _, .field hkey rfl fun _ => .inl⟩
    · obtain ⟨fields, k, hcolon, hfields, rfl⟩ := reads_readOnce h
      refine ⟨k, _, hcolon, reads_readValue_of_readObject hfields, .field hkey rfl ?_⟩
      rintro options ⟨⟩
      exact .inr ⟨rfl, rfl⟩
  · rw [readMember_foreign hkey] at h
    obtain ⟨k, value, hcolon, hvalue, rfl⟩ := reads_readColon_bind_pure.1 h
    exact ⟨k, value, hcolon, hvalue, .foreign hkey⟩

/-- What has been read into a draft, if the members before were these. -/
structure Holds (d : Draft) (members : List (String × Json)) : Prop where
  inOrder : d.extra.InOrder
  extra : ∀ key, d.extra.get? key = if key ∈ knownKeys then none else members.reverse.lookup key
  editorOptions : ∀ options, d.editorOptions = some options → ("editor_options", .object options) ∈ members

/-- One more member is kept with its value, or it is a field. -/
theorem Holds.next {d d' : Draft} {members : List (String × Json)} {key : String} {value : Json}
    (h : Holds d members) (hnext : d.Absorbs key value d') : Holds d' (members ++ [(key, value)]) := by
  have hlookup : ∀ other, (members ++ [(key, value)]).reverse.lookup other =
      if other = key then some value else members.reverse.lookup other := by
    intro other
    rw [List.reverse_append, List.reverse_singleton, List.singleton_append]
    exact Fields.get?_cons members.reverse key other value
  cases hnext with
  | foreign hkey =>
      refine ⟨h.inOrder.insert key value, fun other => ?_, fun options hoptions => ?_⟩
      · rw [Fields.get?_insert, hlookup, h.extra]
        by_cases hother : other = key
        · rw [if_pos hother, if_pos hother, if_neg (hother ▸ hkey)]
        · rw [if_neg hother, if_neg hother]
      · exact List.mem_append_left _ (h.editorOptions options hoptions)
  | field hkey hextra hoptions =>
      refine ⟨hextra ▸ h.inOrder, fun other => ?_, fun options hsome => ?_⟩
      · rw [hextra, h.extra, hlookup]
        by_cases hother : other ∈ knownKeys
        · rw [if_pos hother, if_pos hother]
        · have hne : other ≠ key := by
            rintro rfl
            exact hother hkey
          rw [if_neg hother, if_neg hother, if_neg hne]
      · rcases hoptions options hsome with hsome | ⟨rfl, rfl⟩
        · exact List.mem_append_left _ (h.editorOptions options hsome)
        · exact List.mem_append_right _ List.mem_cons_self

/-- The members of a document from which a configuration was read, one after the other, hold what was
read. -/
theorem exists_members {text : String} {c : Config} (h : parse text = .ok c) :
    ∃ d members, parseMembers text = .ok members ∧ Holds d members ∧ c = d.finish := by
  obtain ⟨j, hread, hend⟩ := parseWith_eq_ok_iff.1 h
  obtain ⟨d, htyped, rfl⟩ := reads_bind_pure.1 hread
  obtain ⟨hstart, hmembers⟩ := reads_readTyped.1 htyped
  rw [reads_withFuel] at hmembers
  -- the members are collected side by side with the draft
  have hempty : Holds {} [] := ⟨List.Pairwise.nil, by simp [Fields.get?], by simp⟩
  have hstep : ∀ d members key i d' j, Holds d members → (readMember d key).Reads i d' j →
      ∃ members', Holds d' members' ∧ (collect members key).Reads i members' j := by
    intro d members key i d' j hholds hnext
    obtain ⟨k, value, hcolon, hvalue, habsorbs⟩ := reads_readMember hnext
    exact ⟨_, hholds.next habsorbs, reads_collect.2 ⟨k, value, hcolon, hvalue, rfl⟩⟩
  obtain ⟨members, hholds, hmembers⟩ := readMembers_simulation hstep hempty hmembers
  exact ⟨d, members, parseMembers_eq_ok_iff.2 ⟨_, _, rfl, hstart, hmembers, hend⟩, hholds, rfl⟩

/-- The other members are those of the document that are no fields, with their last values. -/
theorem Holds.mem_extra_iff {d : Draft} {members : List (String × Json)} (h : Holds d members)
    {key : String} {value : Json} :
    (key, value) ∈ d.extra ↔ key ∉ knownKeys ∧ members.reverse.lookup key = some value := by
  rw [← lookup_eq_some_iff h.inOrder.nodup_keys]
  show d.extra.get? key = some value ↔ _
  rw [h.extra]
  split
  · next hkey => simp [hkey]
  · next hkey => simp [hkey]

theorem mem_of_lookup_reverse {members : List (String × Json)} {key : String} {value : Json}
    (h : members.reverse.lookup key = some value) : (key, value) ∈ members := by
  obtain ⟨front, back, hmembers, -⟩ := List.lookup_eq_some_iff.1 h
  rw [← List.mem_reverse, hmembers]
  simp

theorem Holds.fit {N : Number → Prop} {d : Draft} {members : List (String × Json)} (h : Holds d members)
    (hmembers : ∀ member ∈ members, Fits N (depthLimit - 2) member.2) : d.finish.Fit N where
  editorOptions := by
    show (d.editorOptions.getD []).Fit N (depthLimit - 3)
    cases hoptions : d.editorOptions with
    | none => exact Fields.fit_nil N _
    | some options => exact hmembers _ (h.editorOptions options hoptions)
  extra := by
    refine ⟨h.inOrder, fun field hfield => ?_⟩
    exact hmembers _ (mem_of_lookup_reverse (h.mem_extra_iff.1 hfield).2)
  foreign := fun _ hfield => (h.mem_extra_iff.1 hfield).1

/-- What was read is well formed. -/
theorem fit_of_parse {I : List Char → Prop} {N : Number → Prop} (hI : Invariant I N) {text : String}
    {c : Config} (h : parse text = .ok c) (htext : I text.toList) : c.Fit N := by
  obtain ⟨d, members, hmembers, hholds, rfl⟩ := exists_members h
  exact hholds.fit (fits_of_parseMembers hI hmembers htext)

/-! ### The members that are written -/

/-- A field is set: the root is given, a list is not empty. -/
def Sets (c : Config) (key : String) : Prop :=
  key = "root_dir" ∧ c.rootDir ≠ none ∨ key = "exclude_files" ∧ c.excludeFiles ≠ [] ∨
    key = "python_path" ∧ c.pythonPath ≠ [] ∨ key = "open_files" ∧ c.openFiles ≠ [] ∨
    key = "editor_options" ∧ c.editorOptions ≠ []

instance (c : Config) (key : String) : Decidable (c.Sets key) :=
  inferInstanceAs (Decidable (_ ∨ _))

/-- The members of a document that are fields. -/
def fields (c : Config) : List (String × Json) := { c with extra := [] }.members

theorem members_eq (c : Config) : c.members = c.fields ++ c.extra := by
  simp [members, fields]

/-- The fields that are written are those that are set, in a fixed order. -/
theorem keys_fields (c : Config) : c.fields.map Prod.fst = knownKeys.filter fun key => c.Sets key := by
  have hroot : ((c.rootDir.map fun p => ("root_dir", Json.string p.text)).toList).map Prod.fst =
      ["root_dir"].filter fun key => c.Sets key := by
    cases h : c.rootDir <;> simp [Sets, h]
  have hexclude : (textsMember "exclude_files" c.excludeFiles).map Prod.fst =
      ["exclude_files"].filter fun key => c.Sets key := by
    by_cases h : c.excludeFiles = [] <;> simp [textsMember, Sets, h]
  have hpython : (textsMember "python_path" (c.pythonPath.map Path.text)).map Prod.fst =
      ["python_path"].filter fun key => c.Sets key := by
    by_cases h : c.pythonPath = [] <;> simp [textsMember, Sets, h]
  have hopen : (textsMember "open_files" c.openFiles).map Prod.fst =
      ["open_files"].filter fun key => c.Sets key := by
    by_cases h : c.openFiles = [] <;> simp [textsMember, Sets, h]
  have heditor : (if c.editorOptions = [] then []
      else [("editor_options", Json.object c.editorOptions)]).map Prod.fst =
      ["editor_options"].filter fun key => c.Sets key := by
    by_cases h : c.editorOptions = [] <;> simp [Sets, h]
  simp only [fields, members, List.append_nil, List.map_append, hroot, hexclude, hpython, hopen, heditor,
    ← List.filter_append]
  rfl

/-- No key is written twice. -/
theorem nodup_keys_members {N : Number → Prop} {c : Config} (hc : c.Fit N) :
    (c.members.map Prod.fst).Nodup := by
  rw [members_eq, List.map_append, keys_fields]
  refine List.nodup_append.2 ⟨?_, hc.extra.1.nodup_keys, ?_⟩
  · exact List.Nodup.sublist List.filter_sublist (by decide)
  · rintro key hkey other hother rfl
    obtain ⟨field, hfield, rfl⟩ := List.mem_map.1 hother
    exact hc.foreign field hfield (List.mem_filter.1 hkey).1

/-- A key that is no field is written with the value that is kept. -/
theorem mem_members_iff {c : Config} {key : String} (hkey : key ∉ knownKeys) {value : Json} :
    (key, value) ∈ c.members ↔ (key, value) ∈ c.extra := by
  rw [members_eq, List.mem_append, or_iff_right]
  intro hmem
  have hfield : key ∈ c.fields.map Prod.fst := List.mem_map.2 ⟨_, hmem, rfl⟩
  rw [keys_fields] at hfield
  exact hkey (List.mem_filter.1 hfield).1

/-- A field is written exactly if it is set. -/
theorem mem_keys_members_iff {N : Number → Prop} {c : Config} (hc : c.Fit N) {key : String}
    (hkey : key ∈ knownKeys) : key ∈ c.members.map Prod.fst ↔ c.Sets key := by
  have hextra : key ∉ c.extra.map Prod.fst := by
    intro hmem
    obtain ⟨field, hfield, rfl⟩ := List.mem_map.1 hmem
    exact hc.foreign field hfield hkey
  rw [members_eq, List.map_append, List.mem_append, or_iff_left hextra, keys_fields, List.mem_filter]
  simp [hkey]

/-- The members that are written are well-formed values. -/
theorem fits_members {N : Number → Prop} {c : Config} (hc : c.Fit N) :
    ∀ member ∈ c.members, Fits N (depthLimit - 2) member.2 := by
  have htexts : ∀ key texts, ∀ member ∈ textsMember key texts, Fits N (depthLimit - 2) member.2 := by
    intro key texts member hmember
    rw [textsMember] at hmember
    split at hmember
    · cases hmember
    · obtain rfl := List.mem_singleton.1 hmember
      intro item hitem
      obtain ⟨text, -, rfl⟩ := List.mem_map.1 hitem
      trivial
  intro member hmember
  simp only [members, List.mem_append] at hmember
  rcases hmember with ((((hmember | hmember) | hmember) | hmember) | hmember) | hmember
  · obtain ⟨p, -, rfl⟩ := Option.map_eq_some_iff.1 (Option.mem_toList.1 hmember)
    trivial
  · exact htexts _ _ member hmember
  · exact htexts _ _ member hmember
  · exact htexts _ _ member hmember
  · split at hmember
    · cases hmember
    · obtain rfl := List.mem_singleton.1 hmember
      exact hc.editorOptions
  · exact hc.extra.2 member hmember

/-! ### The file -/

section

variable {s : Site} {dir : Path} {c : Config}

theorem load_eq_loaded_iff :
    load s dir = .loaded c ↔ ∃ text, s.readText (dir.join fileName) = .ok text ∧ parse text = .ok c := by
  rw [load]
  split
  · next h => simp [h]
  · next e _ h => simp [h]
  · next text h =>
      cases hparse : parse text with
      | ok config => simp [h, hparse]
      | error e => simp [h, hparse]

theorem readText_of_set {place : RealPath} {e : Option Entry} {p : Path}
    (h : s.locate true p = .ok (place, e)) (he : e ≠ some .directory) (text : String) :
    ({ s with disk := s.disk.set place (.file (Text.encode text)) } : Site).readText p = .ok text :=
  Site.readText_eq_ok_iff.2
    ⟨place, _, Site.find_eq_ok_iff.2 (Site.locate_set h he _), Text.decode?_encode text⟩

/-- What was saved is loaded. -/
theorem load_of_save {disk : Disk} (hc : c.Fit Number.IsInteger) (h : c.save s dir = .ok disk) :
    load { s with disk := disk } dir = .loaded c := by
  obtain ⟨place, e, hlocate, he, rfl⟩ := Site.writeBytes_eq_ok_iff.1 h
  have hread := readText_of_set hlocate he c.text
  exact load_eq_loaded_iff.2 ⟨c.text, hread, parse_text hc⟩

end

/-- **Loading, saving and loading again.** If all numerals of the document write integers, the
configuration that was loaded is read back from its own document, and saving it once more changes nothing.
Its other members are those of the document that are no fields, with their last values. They are all
written, each one once, and of the fields those that are set. -/
theorem loaded_config_survives_saving {s : Site} {dir : Path} {text : String} {c : Config}
    (hread : s.readText (dir.join fileName) = .ok text) (hload : load s dir = .loaded c)
    (hnumerals : ∀ numeral ∈ numerals text.toList, IsIntegerNumeral numeral) :
    (parse c.text = .ok c ∧ (parse c.text).map Config.text = .ok c.text) ∧
      (∃ disk, c.save s dir = .ok disk ∧
        ({ s with disk := disk } : Site).readText (dir.join fileName) = .ok c.text ∧
        load { s with disk := disk } dir = .loaded c ∧ c.save { s with disk := disk } dir = .ok disk) ∧
      ∃ members written, parseMembers text = .ok members ∧
        Json.parse text = .ok (.object (Fields.ofList members)) ∧
        (∀ key value, (key, value) ∈ c.extra ↔
          key ∉ knownKeys ∧ members.reverse.lookup key = some value) ∧
        parseMembers c.text = .ok written ∧ (written.map Prod.fst).Nodup ∧
        (∀ key, key ∉ knownKeys → written.lookup key = members.reverse.lookup key) ∧
        ∀ key ∈ knownKeys, key ∈ written.map Prod.fst ↔ c.Sets key := by
  obtain ⟨text', hread', hparse⟩ := load_eq_loaded_iff.1 hload
  obtain rfl : text = text' := Except.ok.inj (hread.symm.trans hread')
  have hc : c.Fit Number.IsInteger := fit_of_parse invariant_isInteger hparse hnumerals
  have hback := parse_text hc
  refine ⟨⟨hback, by rw [hback]; rfl⟩, ?_, ?_⟩
  · -- the file was read, so it can be written
    obtain ⟨place, bytes, hfind, -⟩ := Site.readText_eq_ok_iff.1 hread
    have hlocate := Site.find_eq_ok_iff.1 hfind
    have hsaved := readText_of_set hlocate (by simp) c.text
    refine ⟨_, Site.writeBytes_eq_ok_iff.2 ⟨place, _, hlocate, by simp, rfl⟩, hsaved,
      load_eq_loaded_iff.2 ⟨_, hsaved, hback⟩, ?_⟩
    exact Site.writeBytes_eq_ok_iff.2
      ⟨place, _, Site.locate_set hlocate (by simp) _, by simp, (Disk.set_set _ _ _).symm⟩
  · obtain ⟨d, members, hmembers, hholds, rfl⟩ := exists_members hparse
    refine ⟨members, _, hmembers, parse_of_parseMembers hmembers, fun _ _ => hholds.mem_extra_iff,
      parseMembers_write (fits_members hc), nodup_keys_members hc, fun key hkey => ?_,
      fun key hkey => mem_keys_members_iff hc hkey⟩
    ext value
    rw [lookup_eq_some_iff (nodup_keys_members hc), mem_members_iff hkey]
    exact hholds.mem_extra_iff.trans (and_iff_right hkey)

/-- A document with a member that occurs twice, escapes, negative numbers and an empty field. -/
def foreignText : String :=
  "\x7b\x22z\x22: 1, \x22root_dir\x22: \x22..\x22, \x22z\x22: [-25, \x7b\x22q\\\x22\x22: \x22\\u0001\\n\x22\x7d], \x22open_files\x22: []\x7d"

def foreignConfig : Config where
  rootDir := some ⟨".."⟩
  extra := [("z", .array [.number (.negative 25), .object [("q\x22", .string "\x01\n")]])]

def foreignSite : Site where
  disk := { entries := [(.of ["w"], .directory), (.of ["w", "config"], .file (Text.encode foreignText))] }
  cwd := []

theorem loaded_foreignConfig_survives_saving :
    load foreignSite ⟨"/w"⟩ = .loaded foreignConfig ∧
      (∀ numeral ∈ numerals foreignText.toList, IsIntegerNumeral numeral) ∧
      parse foreignConfig.text = .ok foreignConfig ∧
      ∃ disk, foreignConfig.save foreignSite ⟨"/w"⟩ = .ok disk ∧
        load { foreignSite with disk := disk } ⟨"/w"⟩ = .loaded foreignConfig := by
  have hread : foreignSite.readText (Path.join ⟨"/w"⟩ fileName) = .ok foreignText := by decide +kernel
  have hload : load foreignSite ⟨"/w"⟩ = .loaded foreignConfig := by decide +kernel
  have hnumerals : ∀ numeral ∈ numerals foreignText.toList, IsIntegerNumeral numeral := by
    have htwo : numerals foreignText.toList = [['1'], ['-', '2', '5']] := by decide +kernel
    rw [htwo]
    rintro numeral hmem
    rcases List.mem_cons.1 hmem with rfl | hmem
    · exact .inl ⟨1, by decide, by decide⟩
    · rw [List.mem_singleton.1 hmem]
      exact .inr ⟨25, by decide, by decide, by decide⟩
  obtain ⟨⟨hback, -⟩, ⟨disk, hsave, -, hagain, -⟩, -⟩ := loaded_config_survives_saving hread hload hnumerals
  exact ⟨hload, hnumerals, hback, disk, hsave, hagain⟩

end ImportAtlas.Config
