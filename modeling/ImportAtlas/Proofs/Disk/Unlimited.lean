import ImportAtlas.Proofs.Disk.Alike
import ImportAtlas.Proofs.Disk.Writing

/-!
# Ways through any number of links

Steps are followed through a limited number of links. Leaving the limit aside, they reach an entry or
they do not, and under any limit that entry is found or the limit is exceeded. Ways can be put together
and taken apart: steps reach an entry if and only if the first of them reach a directory, and from there
the others reach the entry.

Main definitions:

* `ImportAtlas.Disk.Reaches` — steps lead from a directory to an entry, through any number of links.

Main results:

* `ImportAtlas.Disk.Reaches.resolve_eq` — **under any limit the entry is found, or the limit is
  exceeded**;
* `ImportAtlas.Disk.Reaches.unique` — steps reach one entry only;
* `ImportAtlas.Disk.reaches_append_iff` — **the first steps reach a directory, the others go on from
  there**;
* `ImportAtlas.Disk.reaches_self_iff` — the places that reach themselves are the real ones.
-/

set_option autoImplicit false

namespace ImportAtlas.Disk

variable {d : Disk} {links : Nat} {dir place : RealPath} {steps rest : List Step} {e : Option Entry}

/-! ### Limits -/

theorem resolve_stay (d : Disk) (links : Nat) (dir : RealPath) (rest : List Step) :
    d.resolve true links dir (.stay :: rest) = d.resolve true links dir rest := by
  cases links <;> rfl

theorem resolve_up (d : Disk) (links : Nat) (dir : RealPath) (rest : List Step) :
    d.resolve true links dir (.up :: rest) = d.resolve true links dir.dropLast rest := by
  cases links <;> rfl

section Step

variable {n : Name} (hn : n.Short)

include hn

theorem resolve_enter (links : Nat) (hentry : d.entry? (dir ++ [n]) = some .directory) :
    d.resolve true links dir (.name n :: rest) = d.resolve true links (dir ++ [n]) rest := by
  cases links <;> simp [resolve, descend, Nat.not_lt.2 hn, hentry]

theorem resolve_zero_link {target : Path} (hentry : d.entry? (dir ++ [n]) = some (.link target)) :
    d.resolve true 0 dir (.name n :: rest) = .error .tooManyLinks := by
  simp [resolve, descend, Nat.not_lt.2 hn, hentry]

theorem resolve_succ_link (links : Nat) {target : Path}
    (hentry : d.entry? (dir ++ [n]) = some (.link target)) :
    d.resolve true (links + 1) dir (.name n :: rest) =
      d.resolve true links (if target.isAbsolute then [] else dir) (target.steps ++ rest) := by
  simp [resolve, descend, Nat.not_lt.2 hn, hentry]

end Step

namespace Leads

/-- Under any limit, a way is followed to its end, or the limit is exceeded. -/
theorem resolve_eq_or (h : d.Leads links dir steps place e) (limit : Nat) :
    d.resolve true limit dir steps = .ok (place, e) ∨
      d.resolve true limit dir steps = .error .tooManyLinks := by
  induction h generalizing limit with
  | stop => exact .inl (resolve_eq_ok_iff.2 .stop)
  | stay _ ih =>
      rw [resolve_stay]
      exact ih limit
  | up _ ih =>
      rw [resolve_up]
      exact ih limit
  | enter hn hentry _ ih =>
      rw [resolve_enter hn limit hentry]
      exact ih limit
  | follow hn hentry _ ih =>
      cases limit with
      | zero => exact .inr (resolve_zero_link hn hentry)
      | succ limit =>
          rw [resolve_succ_link hn limit hentry]
          exact ih limit
  | last hn hentry => exact .inl (resolve_eq_ok_iff.2 (.last hn hentry))

/-- A way is one through more links. -/
theorem more (h : d.Leads links dir steps place e) (unused : Nat) :
    d.Leads (links + unused) dir steps place e := by
  induction h with
  | stop => exact .stop
  | stay _ ih => exact .stay ih
  | up _ ih => exact .up ih
  | enter hn hentry _ ih => exact .enter hn hentry ih
  | follow hn hentry _ ih =>
      rw [Nat.add_right_comm]
      exact .follow hn hentry ih
  | last hn hentry => exact .last hn hentry

/-! ### Putting together and taking apart -/

/-- A way to a directory can be gone on from. -/
theorem append {others : Nat} {dir' : RealPath} (h : d.Leads links dir steps dir' (some .directory))
    (hrest : d.Leads others dir' rest place e) :
    d.Leads (links + others) dir (steps ++ rest) place e := by
  generalize hdirectory : some Entry.directory = found at h
  induction h with
  | @stop links dir =>
      rw [Nat.add_comm]
      exact hrest.more links
  | stay _ ih => exact .stay (ih hrest hdirectory)
  | up _ ih => exact .up (ih hrest hdirectory)
  | enter hn hentry _ ih => exact .enter hn hentry (ih hrest hdirectory)
  | @follow links _ _ _ rest' _ target hn hentry _ ih =>
      have happ : target.steps ++ (rest' ++ rest) = target.steps ++ rest' ++ rest := by simp
      rw [Nat.add_right_comm]
      exact .follow hn hentry (happ ▸ ih hrest hdirectory)
  | last _ hentry =>
      -- a file is no directory
      rcases hentry with hentry | ⟨bytes, hentry⟩ <;> simp [hentry] at hdirectory

/-- If more steps follow, the way of the first ones ends in a directory. -/
theorem split (h : d.Leads links dir (steps ++ rest) place e) (hrest : rest ≠ []) :
    ∃ dir', d.Leads links dir steps dir' (some .directory) ∧ d.Leads links dir' rest place e := by
  generalize hall : steps ++ rest = all at h
  induction h generalizing steps with
  | stop => exact absurd (List.append_eq_nil_iff.1 hall).2 hrest
  | @stay links dir place behind e h ih =>
      rcases List.append_eq_cons_iff.1 hall with ⟨rfl, rfl⟩ | ⟨steps, rfl, rfl⟩
      · exact ⟨dir, .stop, .stay h⟩
      · obtain ⟨dir', hfirst, hothers⟩ := ih rfl
        exact ⟨dir', .stay hfirst, hothers⟩
  | @up links dir place behind e h ih =>
      rcases List.append_eq_cons_iff.1 hall with ⟨rfl, rfl⟩ | ⟨steps, rfl, rfl⟩
      · exact ⟨dir, .stop, .up h⟩
      · obtain ⟨dir', hfirst, hothers⟩ := ih rfl
        exact ⟨dir', .up hfirst, hothers⟩
  | @enter links dir place n behind e hn hentry h ih =>
      rcases List.append_eq_cons_iff.1 hall with ⟨rfl, rfl⟩ | ⟨steps, rfl, rfl⟩
      · exact ⟨dir, .stop, .enter hn hentry h⟩
      · obtain ⟨dir', hfirst, hothers⟩ := ih rfl
        exact ⟨dir', .enter hn hentry hfirst, hothers⟩
  | @follow links dir place n behind e target hn hentry h ih =>
      rcases List.append_eq_cons_iff.1 hall with ⟨rfl, rfl⟩ | ⟨steps, rfl, rfl⟩
      · exact ⟨dir, .stop, .follow hn hentry h⟩
      · -- the target of the link comes before the other steps
        have happ : target.steps ++ steps ++ rest = target.steps ++ (steps ++ rest) := by simp
        obtain ⟨dir', hfirst, hothers⟩ := ih happ
        exact ⟨dir', .follow hn hentry hfirst, hothers.more 1⟩
  | @last links dir n hn hentry =>
      rcases List.append_eq_cons_iff.1 hall with ⟨rfl, rfl⟩ | ⟨steps, rfl, hnil⟩
      · exact ⟨dir, .stop, .last hn hentry⟩
      · exact absurd (List.append_eq_nil_iff.1 hnil.symm).2 hrest

end Leads

/-! ### Entries that are reached -/

/-- Steps lead from a directory to an entry at a place, through any number of links. -/
def Reaches (d : Disk) (dir : RealPath) (steps : List Step) (place : RealPath) (e : Entry) : Prop :=
  ∃ links, d.Leads links dir steps place (some e)

section Reaches

variable {e : Entry}

theorem reaches_of_resolve (h : d.resolve true links dir steps = .ok (place, some e)) :
    d.Reaches dir steps place e := ⟨links, resolve_eq_ok_iff.1 h⟩

/-- Under any limit, the entry that steps reach is found, or the limit is exceeded. -/
theorem Reaches.resolve_eq (h : d.Reaches dir steps place e) (limit : Nat) :
    d.resolve true limit dir steps = .ok (place, some e) ∨
      d.resolve true limit dir steps = .error .tooManyLinks := by
  obtain ⟨links, h⟩ := h
  exact h.resolve_eq_or limit

theorem reaches_stay_iff : d.Reaches dir (.stay :: rest) place e ↔ d.Reaches dir rest place e := by
  simp only [Reaches, ← resolve_eq_ok_iff, resolve_stay]

theorem reaches_up_iff : d.Reaches dir (.up :: rest) place e ↔ d.Reaches dir.dropLast rest place e := by
  simp only [Reaches, ← resolve_eq_ok_iff, resolve_up]

/-- Steps reach one entry only. -/
theorem Reaches.unique {place' : RealPath} {e' : Entry} (h : d.Reaches dir steps place e)
    (h' : d.Reaches dir steps place' e') : place = place' ∧ e = e' := by
  obtain ⟨links, h⟩ := h
  have hsame := h'.resolve_eq links
  rw [resolve_eq_ok_iff.2 h] at hsame
  simpa using hsame

/-- Steps reach an entry if and only if the first of them reach a directory, and from there the others
reach the entry. -/
theorem reaches_append_iff (hrest : rest ≠ []) :
    d.Reaches dir (steps ++ rest) place e ↔
      ∃ dir', d.Reaches dir steps dir' .directory ∧ d.Reaches dir' rest place e := by
  constructor
  · rintro ⟨links, h⟩
    obtain ⟨dir', hfirst, hothers⟩ := h.split hrest
    exact ⟨dir', ⟨links, hfirst⟩, links, hothers⟩
  · rintro ⟨dir', ⟨links, hfirst⟩, others, hothers⟩
    exact ⟨links + others, hfirst.append hothers⟩

/-- A name is looked up in the directory that the names before it lead to. -/
theorem reaches_concat_iff {names : RealPath} {n : Name} :
    d.Reaches dir ((names ++ [n]).map .name) place e ↔
      ∃ dir', d.Reaches dir (names.map .name) dir' .directory ∧ d.Reaches dir' [.name n] place e := by
  rw [List.map_append]
  exact reaches_append_iff (by simp)

/-- If steps reach an entry, so do the first of them. -/
theorem Reaches.exists_first (h : d.Reaches dir (steps ++ rest) place e) :
    ∃ place e, d.Reaches dir steps place e := by
  obtain ⟨links, h⟩ := h
  obtain ⟨place', e', hfirst⟩ := resolve_append (resolve_eq_ok_iff.2 h)
  exact ⟨place', e', reaches_of_resolve hfirst⟩

theorem Reaches.real (h : d.Reaches [] steps place e) : d.Real place e := by
  obtain ⟨links, h⟩ := h
  exact real_of_resolve d.through_nil (resolve_eq_ok_iff.2 h)

theorem Reaches.short (h : d.Reaches [] steps place e) : ∀ n ∈ place, n.Short := by
  obtain ⟨links, h⟩ := h
  exact h.short (by simp)

/-- The places that reach themselves are the real ones whose names are short. -/
theorem reaches_self_iff {p : RealPath} :
    d.Reaches [] (p.map .name) p e ↔ d.Real p e ∧ ∀ n ∈ p, n.Short := by
  constructor
  · intro h
    exact ⟨h.real, h.short⟩
  · rintro ⟨hreal, hsize⟩
    have htop : d.Real ([] ++ p) e := hreal
    refine ⟨0, resolve_eq_ok_iff.1 ?_⟩
    rw [resolve, htop.descend_eq d.through_nil, if_pos hsize]
    rfl

/-- What steps from the top reach reaches itself. -/
theorem Reaches.self (h : d.Reaches [] steps place e) : d.Reaches [] (place.map .name) place e :=
  reaches_self_iff.2 ⟨h.real, h.short⟩

/-- What is above a directory that reaches itself does so too. -/
theorem Reaches.dropLast (h : d.Reaches [] (dir.map .name) dir .directory) :
    d.Reaches [] (dir.dropLast.map .name) dir.dropLast .directory := by
  refine reaches_self_iff.2 ⟨h.real.through.real, ?_⟩
  intro n hn
  exact h.short n (List.dropLast_subset dir hn)

end Reaches

end ImportAtlas.Disk
