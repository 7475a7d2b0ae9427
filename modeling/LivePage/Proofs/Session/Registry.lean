import LivePage.Proofs.Event.Log
import LivePage.Session.Dispatch

/-!
# Handlers that are registered and removed

What a session tells of its handlers is what the log of their registrations tells.
-/

namespace LivePage.Session

open Registry

/-- Whatever was registered and removed, and in whatever order the nodes are kept, a registry gives
the answers of the log: the handlers of an event in the order in which they were registered, and how
many handlers there are.  Each has its place in the log as its number, and nothing is ever taken from
the log.  To remove handlers tells how many they were, and leaves the others of their node in order;
a node that has none left is gone. -/
theorem registry_answers_log {ops : List Registry.Operation} {r : Registry}
    (h : Registry.Reaches ops r) :
    let log := Log.ofOperations ops
    (∀ event, r.handlersFor event = log.standing.filter (·.handler.event == event)) ∧
    (r.next = log.length ∧ ∀ i (e : Log.Entry), log[i]? = some e → e.registered.number = i) ∧
    (∀ op, log.map (·.registered) <+: (log.after op).map (·.registered)) ∧
    (∀ (s : Session) nodeId event?, s.registry = r →
      (s.unregister nodeId event?).2.registry = r.unregister nodeId event? ∧
      (s.unregister nodeId event?).1 + (r.unregister nodeId event?).size = r.size ∧
      (r.unregister nodeId event?).ofNode nodeId none =
        (r.ofNode nodeId none).filter (!concerns event? ·)) ∧
    r.size = log.standing.length ∧ ∀ node ∈ r.nodes, node.2 ≠ [] := by
  intro log
  have hr : log.Represents r := Log.represents_of_reaches h
  refine ⟨hr.handlersFor, ⟨hr.next, hr.numbered⟩, log.grows_after, ?_, hr.size,
    fun node ↦ hr.ne_nil⟩
  rintro s nodeId event? rfl
  have hu := hr.unregister nodeId event?
  refine ⟨rfl, ?_, ?_⟩
  · have removed : (s.registry.ofNode nodeId event?).length =
        (log.standing.filter fun x ↦ x.nodeId == nodeId && concerns event? x).length := by
      rw [hr.ofNode, List.filter_filter]
      congr 1
      exact List.filter_congr fun x _ ↦ Bool.and_comm ..
    rw [hu.size, hr.size, Log.standing_strike, Session.unregister, removed,
      ← List.length_eq_length_filter_add]
  · rw [hu.ofNode, hr.ofNode, Log.standing_strike, List.filter_filter, List.filter_filter,
      List.filter_filter, List.filter_filter]
    refine List.filter_congr fun x _ ↦ ?_
    cases x.nodeId == nodeId
    · simp
    · simp [concerns]

/-- Of two buttons the first has lost its click, and comes back to it behind the second, whichever
of them is kept first. -/
theorem registry_of_two_buttons :
    let click : Handler := { event := "click" }
    let hover : Handler := { event := "hover" }
    let ops : List Registry.Operation := [.register "b" click, .register "a" click,
      .register "b" hover, .unregister "b" (some "click"), .register "b" click]
    let r : Registry := { next := 4, nodes := [("b", [⟨"b", hover, 2⟩, ⟨"b", click, 3⟩]),
      ("a", [⟨"a", click, 1⟩])] }
    Registry.Reaches ops r ∧ r.handlersFor "click" = [⟨"a", click, 1⟩, ⟨"b", click, 3⟩] ∧
      r.size = 3 := by
  intro click hover ops r
  have reached : Registry.Reaches ops r := by
    refine .reorder (((((Registry.Reaches.empty.after (.register "b" click)).after
      (.register "a" click)).after (.register "b" hover)).after
      (.unregister "b" (some "click"))).after (.register "b" click)) ?_
    exact .swap ..
  obtain ⟨handlers, -, -, -, size, -⟩ := registry_answers_log reached
  refine ⟨reached, (handlers "click").trans ?_, size.trans ?_⟩
  · rfl
  · rfl

end LivePage.Session
