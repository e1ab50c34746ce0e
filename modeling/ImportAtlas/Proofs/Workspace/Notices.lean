import ImportAtlas.Proofs.Workspace.Session

/-!
# What listeners are told

Each reload tells every listener what changed, also those that come after one that fails. A listener may
answer differently each time, so a session is played in turns here: before each event, the listeners make
up their minds anew. Whoever starts with the files at the time it is registered, and follows what it is
told, always has the files of the workspace.

Main definitions:

* `ImportAtlas.FileListChange.applyTo` — the files after a change;
* `ImportAtlas.Session.Turn`, `ImportAtlas.Session.play` — sessions in which the answers of the listeners
  vary;
* `ImportAtlas.Session.notices`, `ImportAtlas.Session.toldTo` — what comes of the reloads of a session, and
  what one listener hears of it.

Main results:

* `ImportAtlas.Workspace.calls_reload` — all listeners are told of the change, in order, whatever they
  answer;
* `ImportAtlas.Session.exists_play_eq_run` — every session can be played in turns;
* `ImportAtlas.Session.foldl_toldTo` — **following what it is told, a listener keeps up with the files**;
* `ImportAtlas.Session.notices_are_faithful` — **the files are those of the last walk, and each reload tells
  every listener exactly what it changed**.
-/

set_option autoImplicit false

namespace ImportAtlas

/-! ### Changes -/

namespace FileListChange

/-- The files after a change. -/
def applyTo (files : List FileRef) (c : FileListChange) : List FileRef :=
  Order.union (Order.difference files c.removed) c.added

/-- The change from one list to another leads from the one to the other. -/
theorem applyTo_between {old new : List FileRef} (hnew : Order.InOrder new) :
    applyTo old (between old new) = new := by
  refine Order.InOrder.ext ((hnew.difference old).union _) hnew fun r => ?_
  simp only [applyTo, between, Order.mem_union, Order.mem_difference]
  tauto

theorem disjoint_between (old new : List FileRef) :
    (between old new).removed.Disjoint (between old new).added := by
  intro r hremoved hadded
  exact (Order.mem_difference.1 hremoved).2 (Order.mem_difference.1 hadded).1

end FileListChange

namespace Workspace

/-! ### One reload -/

/-- All listeners are told of the change, in order, whatever they answer. -/
theorem value_notify (change : FileListChange) (i : Nat) (listeners : List Listener) :
    (notify change i listeners).value = listeners.map fun listener => ⟨listener, change⟩ := by
  induction listeners generalizing i with
  | nil => rfl
  | cons listener rest ih =>
      rw [notify]
      cases listener.failure with
      | none => rw [Logged.value_bind, ih, Logged.value_pure, List.map_cons]
      | some text => rw [Logged.value_bind, Logged.value_bind, ih, Logged.value_pure, List.map_cons]

theorem change_reload (s : Site) (w : Workspace) :
    (w.reload s).value.2.change = .between w.files (w.reload s).value.1.files := rfl

/-- A reload tells all listeners of the change that it gives back. -/
theorem calls_reload (s : Site) (w : Workspace) :
    (w.reload s).value.2.calls =
      w.listeners.map fun listener => ⟨listener, (w.reload s).value.2.change⟩ :=
  value_notify _ 0 w.listeners

theorem listeners_opened (s : Site) (dir : RealPath) : (opened s dir).listeners = [] := by rw [opened_eq]

/-- The workspace when its listeners have made up their minds: the one with number `i` fails if there is a
text for `i`. -/
def answering (w : Workspace) (answers : Nat → Option String) : Workspace :=
  { w with listeners := w.listeners.mapIdx fun i listener => { listener with failure := answers i } }

theorem listeners_answering (w : Workspace) (answers : Nat → Option String) :
    (w.answering answers).listeners =
      (w.listeners.map Listener.label).mapIdx fun i label => ⟨label, answers i⟩ :=
  List.ext_getElem (by simp [answering]) fun i h h' => by simp [answering]

theorem labels_answering (w : Workspace) (answers : Nat → Option String) :
    (w.answering answers).listeners.map Listener.label = w.listeners.map Listener.label :=
  List.ext_getElem (by simp [answering]) fun i h h' => by simp [answering]

/-- Listeners may stick to their answers. -/
theorem answering_self (w : Workspace) :
    w.answering (fun i => w.listeners[i]?.bind Listener.failure) = w := by
  have hlisteners :
      (w.answering fun i => w.listeners[i]?.bind Listener.failure).listeners = w.listeners := by
    refine List.ext_getElem (by simp [answering]) fun i h h' => ?_
    simp [answering, List.getElem?_eq_getElem h']
  exact congrArg (fun listeners => { w with listeners := listeners }) hlisteners

end Workspace

namespace Session

/-! ### Turns -/

/-- A turn of a session: the listeners make up their minds, and then something happens. -/
structure Turn where
  answers : Nat → Option String
  event : Event

/-- The session after a turn. -/
def turn (x : Session) (t : Turn) : Session :=
  after { x with workspace := x.workspace.answering t.answers } t.event

/-- The session after some turns. -/
def play (x : Session) (turns : List Turn) : Session := turns.foldl turn x

theorem play_cons (x : Session) (t : Turn) (turns : List Turn) :
    x.play (t :: turns) = (x.turn t).play turns := rfl

theorem play_append (x : Session) (front back : List Turn) :
    x.play (front ++ back) = (x.play front).play back := List.foldl_append

/-- Every session can be played in turns. -/
theorem exists_play_eq_run (x : Session) (events : List Event) :
    ∃ turns : List Turn, turns.map Turn.event = events ∧ x.play turns = x.run events := by
  induction events generalizing x with
  | nil => exact ⟨[], rfl, rfl⟩
  | cons event events ih =>
      obtain ⟨turns, hevents, hplay⟩ := ih (x.after event)
      refine ⟨⟨fun i => x.workspace.listeners[i]?.bind Listener.failure, event⟩ :: turns, ?_, ?_⟩
      · rw [List.map_cons, hevents]
      · rw [play_cons, turn, Workspace.answering_self, hplay]
        rfl

/-- What the walk finds now. -/
def walked (x : Session) : List FileRef :=
  (x.site.walk x.workspace.config.excludeFiles (x.workspace.rootDir x.site)).value

/-- Opening ends with a walk. -/
theorem files_eq_walked {x : Session} {p : Path} {mustExist : Bool}
    (hopen : (Workspace.openAt x.site p mustExist).value = .ok x.workspace) :
    x.workspace.files = x.walked := by
  obtain ⟨blank, -, hblank⟩ := value_openAt hopen
  rw [walked, hblank]
  rfl

theorem files_turn_reload (x : Session) (answers : Nat → Option String) :
    (x.turn ⟨answers, .reload⟩).workspace.files = x.walked := rfl

theorem files_turn {x : Session} {t : Turn} (h : t.event ≠ .reload) :
    (x.turn t).workspace.files = x.workspace.files := by
  obtain ⟨answers, event⟩ := t
  cases event with
  | outside disk => rfl
  | configure setting => rfl
  | listen listener => rfl
  | reload => exact absurd rfl h

/-- **The files are those of the last walk**, which was made when the session started or at the last
reload, on the site and by the configuration of that moment. -/
theorem exists_last_walk {x : Session} (hx : x.workspace.files = x.walked) (turns : List Turn) :
    ∃ front back, turns = front ++ back ∧ (∀ t ∈ front.getLast?, t.event = .reload) ∧
      (∀ t ∈ back, t.event ≠ .reload) ∧ (x.play turns).workspace.files = (x.play front).walked := by
  induction turns using List.reverseRecOn with
  | nil => exact ⟨[], [], rfl, by simp, by simp, hx⟩
  | append_singleton turns t ih =>
      by_cases ht : t.event = .reload
      · refine ⟨turns ++ [t], [], by simp, by simpa using ht, by simp, ?_⟩
        obtain ⟨answers, event⟩ := t
        subst ht
        rw [play_append]
        exact files_turn_reload _ answers
      · obtain ⟨front, back, hturns, hfront, hback, hfiles⟩ := ih
        refine ⟨front, back ++ [t], by rw [hturns, List.append_assoc], hfront, ?_, ?_⟩
        · intro u hu
          rcases List.mem_append.1 hu with hu | hu
          · exact hback u hu
          · rw [List.mem_singleton.1 hu]
            exact ht
        · rw [play_append, ← hfiles]
          exact files_turn ht

/-! ### Who is told -/

/-- The label of the listener that an event registers. -/
def Event.registers : Event → Option String
  | .listen listener => some listener.label
  | _ => none

/-- The labels of the listeners that are registered in some turns, in order. -/
def registered (turns : List Turn) : List String := turns.filterMap fun t => t.event.registers

theorem labels_turn (x : Session) (t : Turn) :
    (x.turn t).workspace.listeners.map Listener.label =
      x.workspace.listeners.map Listener.label ++ t.event.registers.toList := by
  obtain ⟨answers, event⟩ := t
  have hlabels := x.workspace.labels_answering answers
  cases event with
  | outside disk => exact hlabels.trans (List.append_nil _).symm
  | configure setting => exact hlabels.trans (List.append_nil _).symm
  | reload => exact hlabels.trans (List.append_nil _).symm
  | listen listener => simpa [turn, after, Workspace.listen, Event.registers] using hlabels

theorem labels_play (x : Session) (turns : List Turn) :
    (x.play turns).workspace.listeners.map Listener.label =
      x.workspace.listeners.map Listener.label ++ registered turns := by
  induction turns generalizing x with
  | nil => simp [play, registered]
  | cons t turns ih =>
      rw [play_cons, ih, labels_turn, List.append_assoc]
      cases h : t.event.registers <;> simp [registered, h]

/-- Nobody listens to a workspace that was just opened. -/
theorem labels_play_of_openAt {x : Session} {p : Path} {mustExist : Bool}
    (hopen : (Workspace.openAt x.site p mustExist).value = .ok x.workspace) (turns : List Turn) :
    (x.play turns).workspace.listeners.map Listener.label = registered turns := by
  rw [labels_play, (value_openAt_iff.1 hopen).2, Workspace.listeners_opened, List.map_nil, List.nil_append]

/-! ### What is told -/

/-- What comes of the reloads of a session, in order. -/
def notices (x : Session) : List Turn → List Workspace.Reload
  | [] => []
  | t :: turns =>
      match t.event with
      | .reload => ((x.workspace.answering t.answers).reload x.site).value.2 :: notices (x.turn t) turns
      | _ => notices (x.turn t) turns

/-- The changes that the listener with a number is told of. -/
def toldTo (k : Nat) (notices : List Workspace.Reload) : List FileListChange :=
  notices.filterMap fun r => r.calls[k]?.map Workspace.Call.change

/-- **Following what it is told, a listener keeps up with the files.** -/
theorem foldl_toldTo {x : Session} {k : Nat} (hk : k < x.workspace.listeners.length) (turns : List Turn) :
    (toldTo k (x.notices turns)).foldl FileListChange.applyTo x.workspace.files =
      (x.play turns).workspace.files := by
  induction turns generalizing x with
  | nil => rfl
  | cons t turns ih =>
      have hlater : k < (x.turn t).workspace.listeners.length := by
        have hlength := congrArg List.length (x.labels_turn t)
        simp only [List.length_map, List.length_append] at hlength
        omega
      rw [play_cons, ← ih hlater]
      -- only a reload changes the files, and then the listener is told of the change
      obtain ⟨answers, event⟩ := t
      cases event with
      | outside disk => rfl
      | configure setting => rfl
      | listen listener => rfl
      | reload =>
          have hcall : k < (x.workspace.answering answers).listeners.length := by
            simpa [Workspace.answering] using hk
          rw [notices, toldTo, List.filterMap_cons, Workspace.calls_reload, List.getElem?_map]
          simp only [List.getElem?_eq_getElem hcall, Option.map_some, List.foldl_cons]
          congr 1
          exact FileListChange.applyTo_between (Site.inOrder_walk _ _ _)

/-- **Notices are faithful.** Whatever has happened since a workspace was opened, the files are those of the
last walk. If the files are listed again now, all registered listeners are called, each once, in the order
in which they were registered and whatever they answer, with the very change that is given back: those files
are gone which were there before and are not found any more, and those are new which are found and were not
there before. And a listener that was registered at any time since, and follows what it is told in the calls,
has the files of the workspace. -/
theorem notices_are_faithful {start : Session} {p : Path} {mustExist : Bool}
    (hopen : (Workspace.openAt start.site p mustExist).value = .ok start.workspace) (turns : List Turn) :
    let x := start.play turns
    (∃ front back, turns = front ++ back ∧ (∀ t ∈ front.getLast?, t.event = .reload) ∧
        (∀ t ∈ back, t.event ≠ .reload) ∧ x.workspace.files = (start.play front).walked) ∧
      (∀ answers,
        let notice := ((x.workspace.answering answers).reload x.site).value.2
        x.notices [⟨answers, .reload⟩] = [notice] ∧
          notice.calls =
            ((registered turns).mapIdx fun i label => ⟨⟨label, answers i⟩, notice.change⟩) ∧
          (∀ r, r ∈ notice.change.removed ↔
            r ∈ x.workspace.files ∧ r ∉ (x.turn ⟨answers, .reload⟩).workspace.files) ∧
          (∀ r, r ∈ notice.change.added ↔
            r ∈ (x.turn ⟨answers, .reload⟩).workspace.files ∧ r ∉ x.workspace.files) ∧
          notice.change.removed.Disjoint notice.change.added) ∧
      ∀ front answers listener back, turns = front ++ ⟨answers, .listen listener⟩ :: back →
        let registration := (start.play front).turn ⟨answers, .listen listener⟩
        (toldTo (registered front).length (registration.notices back)).foldl FileListChange.applyTo
            registration.workspace.files = x.workspace.files := by
  intro x
  refine ⟨exists_last_walk (files_eq_walked hopen) turns, fun answers => ?_,
    fun front answers listener back hturns => ?_⟩
  · intro notice
    have hchange : notice.change =
        .between x.workspace.files (x.turn ⟨answers, .reload⟩).workspace.files :=
      Workspace.change_reload _ _
    have hcalls : notice.calls =
        (x.workspace.answering answers).listeners.map fun listener => ⟨listener, notice.change⟩ :=
      Workspace.calls_reload _ _
    refine ⟨rfl, ?_, fun r => ?_, fun r => ?_, ?_⟩
    · rw [hcalls, Workspace.listeners_answering, labels_play_of_openAt hopen]
      exact List.ext_getElem (by simp) fun i h h' => by simp
    · rw [hchange]
      exact Order.mem_difference
    · rw [hchange]
      exact Order.mem_difference
    · rw [hchange]
      exact FileListChange.disjoint_between _ _
  · -- nobody is ever taken off the list, so the listener keeps its number
    intro registration
    have hx : x = registration.play back := by
      show start.play turns = _
      rw [hturns, play_append, play_cons]
    have hlength : registration.workspace.listeners.length = (registered front).length + 1 := by
      have h := labels_turn (start.play front) ⟨answers, .listen listener⟩
      rw [labels_play_of_openAt hopen] at h
      simpa [Event.registers] using congrArg List.length h
    rw [hx]
    exact foldl_toldTo (by omega) back

/-- A workspace in a directory beside a file and another directory. -/
def sharedSite : Site where
  disk := { entries :=
    [(.of ["p"], .directory), (.of ["p", "w"], .directory), (.of ["p", "a"], .file []),
      (.of ["p", "d"], .directory)] }
  cwd := []

def sharedSession : Session := ⟨sharedSite, Workspace.opened sharedSite (.of ["p", "w"])⟩

/-- Somebody puts a file in the other directory. -/
def sharedDisk : Disk where
  entries :=
    [(.of ["p"], .directory), (.of ["p", "w"], .directory), (.of ["p", "a"], .file []),
      (.of ["p", "d"], .directory), (.of ["p", "d", "b"], .file [])]

/-- The first listener fails at the first reload, after which the root moves. -/
def sharedTurns : List Turn :=
  [⟨fun _ => none, .outside sharedDisk⟩,
    ⟨fun _ => none, .configure (.excludeFiles ["a"])⟩,
    ⟨fun i => if i = 0 then some "gone" else none, .reload⟩,
    ⟨fun _ => none, .listen ⟨"second", none⟩⟩,
    ⟨fun _ => none, .configure (.rootDir ⟨"../d"⟩)⟩,
    ⟨fun _ => none, .reload⟩]

theorem notices_are_faithful_sharedSession :
    (Workspace.openAt sharedSite ⟨"/p/w"⟩ true).value = .ok sharedSession.workspace ∧
      let first : Turn := ⟨fun _ => none, .listen ⟨"first", none⟩⟩
      let x := sharedSession.play (first :: sharedTurns)
      x.workspace.files = [⟨.of ["p", "d", "b"], .of ["p", "d"]⟩] ∧
        (toldTo 0 ((sharedSession.turn first).notices sharedTurns)).foldl FileListChange.applyTo
          sharedSession.workspace.files = x.workspace.files ∧
        let notice := ((x.workspace.answering fun _ => some "gone").reload x.site).value.2
        notice.calls =
          [⟨⟨"first", some "gone"⟩, notice.change⟩, ⟨⟨"second", some "gone"⟩, notice.change⟩] := by
  have hopen : (Workspace.openAt sharedSession.site ⟨"/p/w"⟩ true).value = .ok sharedSession.workspace := by
    decide +kernel
  refine ⟨hopen, ?_⟩
  intro first x
  have hall := notices_are_faithful hopen (first :: sharedTurns)
  exact ⟨by decide +kernel, hall.2.2 [] _ _ sharedTurns rfl, (hall.2.1 fun _ => some "gone").2.1⟩

end Session

end ImportAtlas
