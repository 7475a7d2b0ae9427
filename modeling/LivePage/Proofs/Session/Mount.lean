import LivePage.Proofs.Session.Pending

/-!
# Pages that are mounted and unmounted

Handlers are kept by the ids of their nodes, whatever page or host they came from.  So a page that
is unmounted takes all handlers with it that are registered under the id of one of its nodes, and no
other.
-/

namespace LivePage

/-- Whether a handler is registered under the id of one of some nodes. -/
def Registered.isUnder (ns : List Node) (x : Registered) : Bool := ns.any (·.id == x.nodeId)

namespace Registered

variable {n : Node} {ns : List Node} {x : Registered}

@[simp] theorem isUnder_nil : x.isUnder [] = false := rfl

@[simp] theorem isUnder_cons : x.isUnder (n :: ns) = (x.nodeId == n.id || x.isUnder ns) := by
  rw [isUnder, List.any_cons, Bool.beq_comm, isUnder]

end Registered

namespace Log

variable {log : Log}

theorem exists_standing_registerNode (log : Log) (n : Node) :
    ∃ xs, (log.registerNode n).standing = log.standing ++ xs ∧ xs.length = n.events.length ∧
      ∀ x ∈ xs, x.nodeId = n.id := by
  unfold registerNode
  induction n.events generalizing log with
  | nil => exact ⟨[], by simp⟩
  | cons h r ih =>
    obtain ⟨xs, standing, length, ids⟩ := ih (log.register n.id h)
    refine ⟨⟨n.id, h, log.length⟩ :: xs, ?_, by simp [length], ?_⟩
    · rw [List.foldl_cons, standing, standing_register, List.append_assoc, List.singleton_append]
    · exact List.forall_mem_cons.mpr ⟨rfl, ids⟩

/-- The handlers of nodes come behind all others, each under the id of its node. -/
theorem exists_standing_registerNodes (log : Log) (ns : List Node) :
    ∃ xs, (ns.foldl registerNode log).standing = log.standing ++ xs ∧
      xs.length = (ns.flatMap (·.events)).length ∧ ∀ x ∈ xs, x.isUnder ns = true := by
  induction ns generalizing log with
  | nil => exact ⟨[], by simp⟩
  | cons n r ih =>
    obtain ⟨xs, first, length, ids⟩ := log.exists_standing_registerNode n
    obtain ⟨ys, rest, length', under⟩ := ih (log.registerNode n)
    refine ⟨xs ++ ys, ?_, by simp [length, length'], fun x hx ↦ ?_⟩
    · rw [List.foldl_cons, rest, first, List.append_assoc]
    · rcases List.mem_append.mp hx with hx | hx
      · simp [ids x hx]
      · simp [under x hx]

end Log

/-- Handlers that go are missed by some event. -/
theorem Registry.filter_handlersFor_eq_iff {r : Registry} {q : Registered → Bool} :
    (∀ event, (r.handlersFor event).filter q = r.handlersFor event) ↔
      ∀ x ∈ r.all, q x = true := by
  simp only [List.filter_eq_self, mem_handlersFor_iff]
  exact ⟨fun h x hx ↦ h _ x ⟨hx, rfl⟩, fun h _ x hx ↦ h x hx.1⟩

namespace Session

variable {s : Session} {p : Page} {x : Registered}

theorem mount_of_isValid (h : p.isValid = true) :
    s.mount p = ((s.registerPage p).2, .ok (s.registerPage p).1) := if_pos h

theorem mount_of_not_isValid (h : ¬p.isValid = true) :
    s.mount p = (s, .error (.invalid p.violations)) := if_neg h

/-- What is done to a session one after another leaves nothing due. -/
theorem ready_run (config : Config) (components : Components) (host : Host) (context : Context)
    (ops : List Operation) : Ready ((start config components host context).run ops) := by
  have orderly : Orderly config.executor.maxDepth (start config components host context) :=
    ⟨rfl, rfl, List.forall_mem_nil _⟩
  obtain ⟨es, -, timeline⟩ := orderly.exists_timeline ops
  exact timeline.ready ⟨Sound.start config components host context, List.forall_mem_nil _⟩

theorem fst_unregisterAll_cons (s : Session) (n : Node) (r : List Node) :
    (s.unregisterAll (n :: r)).1 =
      (s.unregister n.id none).1 + ((s.unregister n.id none).2.unregisterAll r).1 := rfl

/-- The handlers of nodes go by the ids of the nodes. -/
theorem exists_unregisterAll_represents {log : Log} (h : log.Represents s.registry)
    (ns : List Node) :
    ∃ log' : Log, log'.Represents (s.unregisterAll ns).2.registry ∧
      log'.standing = log.standing.filter (!·.isUnder ns) ∧
      (s.unregisterAll ns).1 = log.standing.countP (·.isUnder ns) := by
  induction ns generalizing s log with
  | nil => exact ⟨log, h, by simp, by simp [unregisterAll]⟩
  | cons n r ih =>
    obtain ⟨log', represents, standing, count⟩ :=
      ih (s := (s.unregister n.id none).2) (h.unregister n.id none)
    have own : (fun x : Registered ↦ x.nodeId == n.id && Registry.concerns none x) =
        (·.nodeId == n.id) := by
      funext x
      exact Bool.and_true _
    rw [own, Log.standing_strike] at standing count
    refine ⟨log', represents, ?_, ?_⟩
    · rw [standing, List.filter_filter]
      refine List.filter_congr fun x _ ↦ ?_
      rw [Registered.isUnder_cons, Bool.not_or, Bool.and_comm]
    · have first : (s.unregister n.id none).1 = log.standing.countP (·.nodeId == n.id) := by
        rw [Session.unregister, h.ofNode, List.filter_filter, List.countP_eq_length_filter]
        rfl
      rw [fst_unregisterAll_cons, first, count,
        List.countP_eq_countP_filter_add log.standing (·.isUnder (n :: r)) (·.nodeId == n.id),
        List.countP_filter, List.countP_filter, List.countP_filter]
      congr 1
      · refine List.countP_congr fun x _ ↦ ?_
        simpa using Or.inl
      · refine List.countP_congr fun x _ ↦ ?_
        cases hx : x.nodeId == n.id <;> simp [hx]

/-- Runs that wait go with the handlers of nodes, and all others stay as they are. -/
theorem Sound.waiting_unregisterAll (h : Sound s) (ns : List Node) :
    (s.unregisterAll ns).2.waiting = s.waiting.filter (!·.run.target.isUnder ns) := by
  obtain ⟨log, hl⟩ := h.represented
  obtain ⟨log', represents, standing, -⟩ := exists_unregisterAll_represents hl ns
  have k := (h.keeps_unregisterAll ns).1
  have mem (v : Waiting) : v ∈ (s.unregisterAll ns).2.waiting ↔
      v ∈ s.waiting.filter (!·.run.target.isUnder ns) := by
    rw [k.mem_iff, List.mem_filter, represents.mem_all_iff, standing, List.mem_filter]
    refine and_congr_right fun hv ↦ ?_
    exact and_iff_right (hl.mem_all_iff.mp (h.targets v hv))
  have nodup : s.waiting.Nodup := h.numbers.of_map _
  have sublist : (s.unregisterAll ns).2.waiting.Sublist
      (s.waiting.filter (!·.run.target.isUnder ns)) := by
    have hs := k.sublist.filter (!·.run.target.isUnder ns)
    rwa [List.filter_eq_self.mpr fun v hv ↦ (List.mem_filter.mp ((mem v).mp hv)).2] at hs
  have perm := (List.perm_ext_iff_of_nodup (nodup.sublist k.sublist) (nodup.filter _)).mpr mem
  exact sublist.eq_of_length perm.length_eq

/-- Handlers that are mounted come under the ids of their page. -/
theorem mount_ok {n : Nat} (h : (s.mount p).2 = .ok n) {log : Log}
    (hl : log.Represents s.registry) :
    ∃ (log' : Log) (xs : List Registered), log'.Represents (s.mount p).1.registry ∧
      log'.standing = log.standing ++ xs ∧ xs.length = n ∧
      ∀ x ∈ xs, x.isUnder p.nodes = true := by
  by_cases hv : p.isValid = true
  · rw [mount_of_isValid hv] at h ⊢
    cases h
    obtain ⟨xs, standing, length, under⟩ := log.exists_standing_registerNodes p.nodes
    exact ⟨_, xs, hl.registerPage p, standing, length, under⟩
  · rw [mount_of_not_isValid hv] at h
    cases h

/-- Whatever was done to a session before, to mount a page and to unmount it again takes away the
handlers that are registered under the ids of its nodes, those that were there before among them,
and tells how many they are.  Every other handler stays, and so does what waits of it.  Handlers are
so as they were before just where none was registered under these ids.  A page that is not valid is
not mounted, and changes nothing. -/
theorem mount_unmount (config : Config) (components : Components) (host : Host) (context : Context)
    (ops : List Operation) (p : Page) :
    let s := (start config components host context).run ops
    let u := (s.mount p).1.unmount p
    ((∃ n, (s.mount p).2 = .ok n) ↔ p.isValid = true) ∧
    (∀ e, (s.mount p).2 = .error e → (s.mount p).1 = s) ∧
    ∀ n, (s.mount p).2 = .ok n →
      u.1 = n + s.registry.all.countP (·.isUnder p.nodes) ∧
      (∀ event, u.2.registry.handlersFor event =
        (s.registry.handlersFor event).filter (!·.isUnder p.nodes)) ∧
      u.2.waiting = s.waiting.filter (!·.run.target.isUnder p.nodes) ∧
      u.2 = { s with registry := u.2.registry, waiting := u.2.waiting } ∧
      ((∀ event, u.2.registry.handlersFor event = s.registry.handlersFor event) ↔
        ∀ x ∈ s.registry.all, x.isUnder p.nodes = false) := by
  intro s u
  have sound : Sound s := (ready_run config components host context ops).toSound
  obtain ⟨log, hl⟩ := sound.represented
  refine ⟨?_, fun e he ↦ ?_, fun n hn ↦ ?_⟩
  · by_cases hv : p.isValid = true
    · simp [mount_of_isValid hv, hv]
    · simp [mount_of_not_isValid hv, hv]
  · by_cases hv : p.isValid = true
    · rw [mount_of_isValid hv] at he
      cases he
    · rw [mount_of_not_isValid hv]
  · obtain ⟨log₁, xs, represents₁, standing₁, rfl, under⟩ := mount_ok hn hl
    obtain ⟨log₂, represents₂, standing₂, count⟩ :=
      exists_unregisterAll_represents represents₁ p.nodes
    have gone : xs.filter (!·.isUnder p.nodes) = [] :=
      List.filter_eq_nil_iff.mpr (by simpa using under)
    rw [standing₁, List.filter_append, gone, List.append_nil] at standing₂
    rw [standing₁, List.countP_append, List.countP_eq_length.mpr under, Nat.add_comm,
      ← hl.all_perm.countP_eq] at count
    have handlers (event : String) : u.2.registry.handlersFor event =
        (s.registry.handlersFor event).filter (!·.isUnder p.nodes) := by
      refine (represents₂.handlersFor event).trans ?_
      rw [standing₂, hl.handlersFor, List.filter_filter, List.filter_filter]
      exact List.filter_congr fun x _ ↦ Bool.and_comm ..
    have waits : u.2.waiting = s.waiting.filter (!·.run.target.isUnder p.nodes) := by
      obtain ⟨registry, mounted⟩ := exists_mount_eq s p
      have same : (s.mount p).1.waiting = s.waiting := by rw [mounted]
      rw [← same]
      exact ((sound.keeps_mount p).sound sound).waiting_unregisterAll p.nodes
    refine ⟨count, handlers, waits, ?_, ?_⟩
    · obtain ⟨registry, mounted⟩ := exists_mount_eq s p
      obtain ⟨registry', waiting, unmounted, -⟩ := exists_unregisterAll_eq (s.mount p).1 p.nodes
      have unmounted : u.2 = _ := unmounted
      rw [unmounted, mounted]
    · simp only [handlers, Registry.filter_handlersFor_eq_iff, Bool.not_eq_true']

/-- A form is mounted where its button has a handler already, which goes with the form.  The field
beside it keeps its handler, and the run that waits of it. -/
theorem unmounts_form :
    let input : Handler := { event := "input", debounce := some 100 }
    let click : Handler := { event := "click" }
    let save : Node := { id := "save", type := "button", events := [click] }
    let p : Page := { id := "form", version := "1.0.0", root := some save }
    let s := (start {} [] (.alone 0) {}).run
      [.register "field" input, .register "save" click, .dispatch "input" .null]
    let u := (s.mount p).1.unmount p
    (s.mount p).2 = .ok 1 ∧ u.1 = 2 ∧ u.2.registry.handlersFor "click" = [] ∧
      u.2.registry.handlersFor "input" = s.registry.handlersFor "input" ∧
      u.2.waiting = s.waiting ∧ s.waiting.length = 1 := by
  intro input click save p s u
  have all : s.registry.all = [⟨"field", input, 0⟩, ⟨"save", click, 1⟩] := rfl
  have waiting : s.waiting.map (·.run.target) = [⟨"field", input, 0⟩] := by cbv
  have valid : p.isValid = true := by
    subst p save click
    rfl
  have mounted : (s.mount p).2 = .ok 1 := by
    rw [mount_of_isValid valid]
    rfl
  have nodes : p.nodes = [save] := rfl
  obtain ⟨-, -, unmounted⟩ := mount_unmount {} [] (.alone 0) {}
    [.register "field" input, .register "save" click, .dispatch "input" .null] p
  obtain ⟨count, handlers, waits, -⟩ := unmounted 1 mounted
  have handlers (event : String) : u.2.registry.handlersFor event =
      (s.registry.handlersFor event).filter (!·.isUnder p.nodes) := handlers event
  refine ⟨mounted, count, ?_, ?_, ?_, by simpa using congrArg List.length waiting⟩
  · simp [handlers, Registry.mem_handlersFor_iff, all, nodes, save, input]
  · simp [handlers, Registry.mem_handlersFor_iff, all, nodes, save, click]
  · rw [waits, List.filter_eq_self]
    intro v hv
    have := List.mem_map_of_mem (f := (·.run.target)) hv
    rw [waiting, List.mem_singleton] at this
    rw [this]
    decide

/-- Two pages have a button of one id.  The handler of the first is gone when the second is
unmounted, though this one has brought none. -/
theorem unmount_takes_others :
    let save : Node := { id := "save", type := "button", events := [{ event := "click" }] }
    let first : Page := { id := "first", version := "1.0.0", root := some save }
    let second : Page :=
      { id := "second", version := "1.0.0", root := some { save with events := [] } }
    let s := (start {} [] (.alone 0) {}).run [.mount first]
    let u := (s.mount second).1.unmount second
    (s.mount second).2 = .ok 0 ∧ u.1 = 1 ∧
      u.2.registry.handlersFor "click" ≠ s.registry.handlersFor "click" := by
  intro save first second s u
  have mounted : s.registry.all = [⟨"save", { event := "click" }, 0⟩] := by
    subst s first save
    rfl
  have left : u.2.registry.all = [] := by
    subst u s second first save
    rfl
  have none : (s.mount second).2 = .ok 0 := by
    subst s second first save
    rfl
  have taken : u.1 = 1 := by
    subst u s second first save
    rfl
  refine ⟨none, taken, fun same ↦ ?_⟩
  have there : (⟨"save", { event := "click" }, 0⟩ : Registered) ∈ s.registry.handlersFor "click" :=
    Registry.mem_handlersFor_iff.mpr ⟨mounted ▸ .head _, rfl⟩
  rw [← same, Registry.mem_handlersFor_iff, left] at there
  exact List.not_mem_nil there.1

end Session

end LivePage
