import HardwareTest.Lib.FileTree
import HardwareTest.Lib.Threads
import HardwareTest.Plugin.RunDirectory

/-!
# Sessions that start at the same time

Any number of sessions run `pytest_configure` on one file system, one call of one of them after
another.  `mkdir` is one step, so of all sessions only one can make a directory, and only where nothing
was: with a directory of its own no check before it is needed.

* `answer` — the file system, where any call may be refused;
* `Effect` — what a call has brought about, which no later call takes back;
* `Owns` — a session owns a directory;
* `sessions_exclusive` — every session that completes owns the directory that it publishes, in its root
  and under its run id, and what was there before is as it was.
-/

namespace HardwareTest.Plugin

open HardwareTest.Lib HardwareTest.Lib.FileTree HardwareTest.Lib.Json HardwareTest.Python
open HardwareTest.Runner HardwareTest.Auth

/-! ## The file system -/

/-- What the hook relies on: `Path.resolve`, the bound on the links of one walk, and the texts of the
errors. -/
structure FileEnv where
  resolve : Tree Text (List UInt8) → PurePath → Place
  links : ℕ
  strerror : Errno → Place → Str

/-- `Path.resolve` is canonical: no link is on the way to what it returns. -/
def FileEnv.Canonical (env : FileEnv) : Prop :=
  ∀ (tree : Tree Text (List UInt8)) (path : PurePath), tree.LinkFree (env.resolve tree path)

/-- The file system, and the directories that were made, each with the session that made it. -/
structure World where
  tree : Tree Text (List UInt8)
  made : List (ℕ × Place)

/-- The file system answers a session.  Any call may be refused, with any error. -/
def answer (env : FileEnv) (session : ℕ) (refusal : Option OsError) :
    (call : DirectoryCall) → World → call.Answer × World
  | .resolve path, w =>
    match refusal with
    | some error => (.error error, w)
    | none => (.ok (env.resolve w.tree path), w)
  | .mkdir path, w =>
    match refusal with
    | some error => (.error error, w)
    | none =>
      match w.tree.mkdir env.links (path.map .name) with
      | .ok (tree, place) => (.ok (), ⟨tree, w.made ++ [(session, place)]⟩)
      | .error errno => (.error ⟨errno == .notFound, env.strerror errno path⟩, w)
  | .isDir path, w =>
    match refusal with
    | some _ => (false, w)
    | none => (w.tree.isDirectory env.links (path.map .name), w)
  | .publish _, w => ((), w)

/-! ## What a call brings about -/

/-- Only directories were added to the tree, and they are recorded. -/
def World.Since (t : Tree Text (List UInt8)) (w : World) : Prop := t.Grown w.tree (w.made.map Prod.snd)

variable {env : FileEnv} {t : Tree Text (List UInt8)} {w : World}

/-- **One call** changes nothing, or it is a `mkdir` that makes a directory. -/
theorem answer_cases (env : FileEnv) (session : ℕ) (refusal : Option OsError) (call : DirectoryCall)
    (w : World) : (answer env session refusal call w).2 = w ∨
      ∃ path tree place, call = .mkdir path ∧ w.tree.mkdir env.links (path.map .name) = .ok (tree, place) ∧
        (answer env session refusal call w).2 = ⟨tree, w.made ++ [(session, place)]⟩ := by
  cases call with
  | resolve path => cases refusal <;> exact .inl rfl
  | mkdir path =>
    cases refusal with
    | some error => exact .inl rfl
    | none =>
      cases hmkdir : w.tree.mkdir env.links (path.map .name) with
      | error errno =>
        refine .inl ?_
        simp only [answer, hmkdir]
      | ok added =>
        refine .inr ⟨path, added.1, added.2, rfl, hmkdir, ?_⟩
        simp only [answer, hmkdir]
  | isDir path => cases refusal <;> exact .inl rfl
  | publish directory => exact .inl rfl

theorem since_answer (env : FileEnv) (h : w.Since t) (session : ℕ) (refusal : Option OsError)
    (call : DirectoryCall) : (answer env session refusal call w).2.Since t := by
  rcases answer_cases env session refusal call w with hw | ⟨path, tree, place, -, hmkdir, hw⟩
  · rw [hw]
    exact h
  · rw [hw, World.Since, List.map_append]
    exact h.mkdir hmkdir

theorem made_answer {entry : ℕ × Place} (h : entry ∈ w.made) (session : ℕ) (refusal : Option OsError)
    (call : DirectoryCall) : entry ∈ (answer env session refusal call w).2.made := by
  rcases answer_cases env session refusal call w with hw | ⟨path, tree, place, -, -, hw⟩
  · rw [hw]
    exact h
  · rw [hw]
    exact List.mem_append_left _ h

/-- A call of a session has had its effect: what is resolved has no link on the way, and a directory that
is made below such a place is at the place of its path. -/
structure Effect (session : ℕ) (call : Sigma DirectoryCall.Answer) (w : World) : Prop where
  resolved : ∀ path root, call = ⟨.resolve path, .ok root⟩ → w.tree.LinkFree root
  made : ∀ place name, call = ⟨.mkdir (place ++ [name]), .ok ()⟩ → w.tree.LinkFree place →
    (session, place ++ [name]) ∈ w.made

/-- **A call has its effect** when it is made. -/
theorem effect_answer (hcanonical : env.Canonical) (h : w.Since t)
    (session : ℕ) (refusal : Option OsError) (call : DirectoryCall) :
    Effect session ⟨call, (answer env session refusal call w).1⟩ (answer env session refusal call w).2 := by
  constructor
  · intro path root hcall
    cases call with
    | resolve given =>
      cases refusal with
      | some error => cases hcall
      | none =>
        cases hcall
        exact hcanonical _ _
    | mkdir given => cases hcall
    | isDir given => cases hcall
    | publish directory => cases hcall
  · intro place name hcall hfree
    cases call with
    | mkdir given =>
      obtain ⟨hgiven, hanswer⟩ := Sigma.mk.inj hcall
      cases hgiven
      have hsince := since_answer env h session refusal (.mkdir (place ++ [name]))
      rw [hsince.linkFree_iff, ← h.linkFree_iff] at hfree
      cases refusal with
      | some error => cases hanswer
      | none =>
        simp only [answer] at hanswer ⊢
        split at hanswer
        · rename_i tree made hmkdir
          rw [Tree.mkdir_linkFree hfree hmkdir]
          exact List.mem_append_right _ List.mem_cons_self
        · cases hanswer
    | resolve given => cases hcall
    | isDir given => cases hcall
    | publish directory => cases hcall

/-- **No later call takes an effect back.** -/
theorem Effect.answer {session : ℕ} {call : Sigma DirectoryCall.Answer} (h : Effect session call w)
    (hsince : w.Since t) (other : ℕ) (refusal : Option OsError) (next : DirectoryCall) :
    Effect session call (answer env other refusal next w).2 := by
  have hafter := since_answer env hsince other refusal next
  constructor
  · intro path root hcall
    rw [hafter.linkFree_iff, ← hsince.linkFree_iff]
    exact h.resolved path root hcall
  · intro place name hcall hfree
    rw [hafter.linkFree_iff, ← hsince.linkFree_iff] at hfree
    exact made_answer (h.made place name hcall hfree) other refusal next

/-! ## Owners -/

/-- A session owns a directory: nothing was there, and the session alone has made it. -/
structure Owns (t : Tree Text (List UInt8)) (w : World) (session : ℕ) (place : Place) : Prop where
  fresh : t.node place = none
  directory : w.tree.node place = some .directory
  sole : ∀ other, (other, place) ∈ w.made ↔ other = session

theorem owns_of_made (h : w.Since t) {session : ℕ} {place : Place} (hmade : (session, place) ∈ w.made) :
    Owns t w session place := by
  have hplace : place ∈ w.made.map Prod.snd := List.mem_map_of_mem hmade
  refine ⟨h.fresh place hplace, ?_, fun other => ⟨fun hother => ?_, fun hother => ?_⟩⟩
  · rw [h.node, if_pos hplace]
  · exact congrArg Prod.fst (List.inj_on_of_nodup_map h.nodup hother hmade rfl)
  · rw [hother]
    exact hmade

theorem Owns.session_eq {first second : ℕ} {place : Place} (h : Owns t w first place)
    (h' : Owns t w second place) : first = second := (h'.sole first).mp ((h.sole first).mpr rfl)

/-! ## Runs -/

abbrev Session := Threads.Thread DirectoryCall DirectoryCall.Answer SessionError Unit

abbrev Sessions := Threads.System DirectoryCall DirectoryCall.Answer SessionError Unit World

/-- The sessions on a file system, before the first of them calls it. -/
def startSessions (t : Tree Text (List UInt8)) (configs : List SessionConfig) : Sessions :=
  Threads.start ⟨t, []⟩ (configs.map pytestConfigure)

/-- One call of one session. -/
def sessionStep (env : FileEnv) : Sessions → ℕ × Option OsError → Option Sessions :=
  Threads.step (answer env)

section Run

variable {configs : List SessionConfig} {events : List (ℕ × Option OsError)} {s : Sessions}

/-- **After every run** only directories were added, and every call has had its effect. -/
theorem run_effects (hcanonical : env.Canonical)
    (hrun : Transition.run (sessionStep env) (startSessions t configs) events = some s) :
    s.shared.Since t ∧ ∀ i session, s.threads[i]? = some session → ∀ call ∈ session.history,
      Effect i call s.shared := by
  refine Threads.calls_invariant (J := fun w => w.Since t) (P := Effect) ?_ ?_ ?_ ?_ hrun
  · exact fun i refusal call w hw => since_answer env hw i refusal call
  · exact fun i refusal call w hw => effect_answer hcanonical hw i refusal call
  · exact fun i refusal call w j earlier hw hearlier => hearlier.answer hw i refusal call
  · exact Tree.Grown.refl t

/-- A session has its configuration, and when it has ended, its calls are a run of the hook. -/
theorem session_runs
    (hrun : Transition.run (sessionStep env) (startSessions t configs) events = some s) {i : ℕ}
    {session : Session} (hsession : s.threads[i]? = some session) :
    ∃ config, configs[i]? = some config ∧ ∀ r, session.outcome = some r →
      Program.Runs (pytestConfigure config) session.history r := by
  obtain ⟨p, hp, hleads⟩ := Threads.thread_leads hrun hsession
  rw [List.getElem?_map, Option.map_eq_some_iff] at hp
  obtain ⟨config, hconfig, rfl⟩ := hp
  exact ⟨config, hconfig, fun r hr => hleads.runs_outcome hr⟩

/-- What was allocated in a run is owned. -/
theorem allocated_owns (hcanonical : env.Canonical)
    (hrun : Transition.run (sessionStep env) (startSessions t configs) events = some s) {i : ℕ}
    {session : Session} (hsession : s.threads[i]? = some session) {config : SessionConfig} {root : Place}
    {name : RunId} (h : Allocated config session.history root name) :
    t.LinkFree root ∧ Owns t s.shared i (root ++ [name.text]) := by
  obtain ⟨hsince, heffects⟩ := run_effects hcanonical hrun
  have hroot := (heffects i session hsession _ h.resolved).resolved _ root rfl
  have hmade := (heffects i session hsession _ h.created).made root name.text rfl hroot
  exact ⟨hsince.linkFree_iff.mp hroot, owns_of_made hsince hmade⟩

end Run

/-- **Session directories are exclusive and contained.**  Whatever the sessions, the file system and the
order of the calls: a session that has completed owns the directory that it has published, a child of
the root that it resolved with its run id as its name; one that has failed has published nothing; no two
own one directory; and everything that was there is as it was. -/
theorem sessions_exclusive (env : FileEnv) (hcanonical : env.Canonical) (t : Tree Text (List UInt8))
    (configs : List SessionConfig) (events : List (ℕ × Option OsError)) {s : Sessions}
    (hrun : Transition.run (sessionStep env) (startSessions t configs) events = some s) :
    (∀ (i : ℕ) (session : Session), s.threads[i]? = some session →
      ∃ config, configs[i]? = some config ∧
        (session.outcome = some (.ok ()) → ∃ root name, Allocated config session.history root name ∧
          toStr name.text = config.givenId ∧ t.LinkFree root ∧ Owns t s.shared i (root ++ [name.text])) ∧
        ∀ e, session.outcome = some (.error e) → published session.history = []) ∧
    (∀ (i j : ℕ) (first second : Session), s.threads[i]? = some first → s.threads[j]? = some second →
      first.outcome = some (.ok ()) → second.outcome = some (.ok ()) →
      published first.history = published second.history → i = j) ∧
    ∀ place node, t.node place = some node → s.shared.tree.node place = some node := by
  refine ⟨?_, ?_, ?_⟩
  · intro i session hsession
    obtain ⟨config, hconfig, hruns⟩ := session_runs hrun hsession
    refine ⟨config, hconfig, ?_, ?_⟩
    · intro hcompleted
      obtain ⟨root, name, hallocated⟩ := configure_completed (hruns _ hcompleted)
      obtain ⟨hroot, howns⟩ := allocated_owns hcanonical hrun hsession hallocated
      exact ⟨root, name, hallocated, toStr_of_checkRunId hallocated.named, hroot, howns⟩
    · intro e hfailed
      exact configure_failed (hruns _ hfailed)
  · intro i j first second hfirst hsecond hcompleted hcompleted' hsame
    obtain ⟨config, -, hruns⟩ := session_runs hrun hfirst
    obtain ⟨config', -, hruns'⟩ := session_runs hrun hsecond
    obtain ⟨root, name, hallocated⟩ := configure_completed (hruns _ hcompleted)
    obtain ⟨root', name', hallocated'⟩ := configure_completed (hruns' _ hcompleted')
    rw [hallocated.published, hallocated'.published] at hsame
    have howns := (allocated_owns hcanonical hrun hfirst hallocated).2
    rw [List.singleton_inj.mp hsame] at howns
    exact howns.session_eq (allocated_owns hcanonical hrun hsecond hallocated').2
  · intro place node hnode
    exact (run_effects hcanonical hrun).1.kept hnode

/-! ## Two sessions with one run id -/

def emptyTree : Tree Text (List UInt8) where
  node place := if place = [] then some .directory else none
  root := if_pos rfl
  closed place name h := by simp at h

/-- Paths without links are resolved already. -/
def plainEnv : FileEnv where
  resolve t path := if t.LinkFree path.parts then path.parts else []
  links := 40
  strerror _ _ := codes "File exists"

theorem plainEnv_canonical : plainEnv.Canonical := by
  intro t path
  show t.LinkFree (if t.LinkFree path.parts then path.parts else [])
  split_ifs with hfree
  · exact hfree
  · exact t.linkFree_nil

def sampleSession : SessionConfig where
  schema := plainSchema
  files _ := .osError (codes "No such file")
  registered := []
  markerSequence := none
  scenario := none
  rootpath := ⟨true, ["project".toList]⟩
  runId := some (codes "run-1")
  artifactsRoot := none
  now := ⟨2026, 7, 1, 12, 0, 0, 0⟩

/-- The first session makes the root of the artifacts and then its directory, which the second has found
free. -/
def sampleCalls : List (ℕ × Option OsError) :=
  [0, 1, 0, 0, 0, 0, 1, 1, 1, 0, 1, 0].map fun session => (session, none)

theorem sample_sessions_exclusive : ∃ s first second,
    Transition.run (sessionStep plainEnv) (startSessions emptyTree [sampleSession, sampleSession]) sampleCalls
        = some s ∧
      s.threads[0]? = some first ∧ s.threads[1]? = some second ∧
      first.outcome = some (.ok ()) ∧
      Owns emptyTree s.shared 0 ["project".toList, "artifacts".toList, "run-1".toList] ∧
      published second.history = [] := by
  obtain ⟨s, first, second, hrun, hfirst, hsecond, hcompleted, hpublished, e, hfailed⟩ :
      ∃ s first second, Transition.run (sessionStep plainEnv)
          (startSessions emptyTree [sampleSession, sampleSession]) sampleCalls = some s ∧
        s.threads[0]? = some first ∧ s.threads[1]? = some second ∧
        first.outcome = some (.ok ()) ∧
        published first.history = [["project".toList, "artifacts".toList, "run-1".toList]] ∧
        ∃ e, second.outcome = some (.error e) :=
    ⟨_, _, _, rfl, rfl, rfl, rfl, rfl, _, rfl⟩
  obtain ⟨hsessions, -, -⟩ := sessions_exclusive plainEnv plainEnv_canonical emptyTree
    [sampleSession, sampleSession] sampleCalls hrun
  obtain ⟨config, -, howns, -⟩ := hsessions 0 first hfirst
  obtain ⟨root, name, hallocated, -, -, howns⟩ := howns hcompleted
  have hplace : root ++ [name.text] = ["project".toList, "artifacts".toList, "run-1".toList] :=
    List.singleton_inj.mp (hallocated.published.symm.trans hpublished)
  rw [hplace] at howns
  obtain ⟨config', -, -, hnothing⟩ := hsessions 1 second hsecond
  exact ⟨s, first, second, hrun, hfirst, hsecond, hcompleted, howns, hnothing e hfailed⟩

end HardwareTest.Plugin
