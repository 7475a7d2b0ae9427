import Mathlib.Algebra.Ring.Nat
import LivePage.Proofs.Event.Delivery

/-!
# What is lost

A receiver of events that has fallen behind is told how many events are no longer in the channel,
and goes on behind the last one.  The events that are still in the channel then are lost to it as
well, and no count speaks of them; there are as many of these as the channel holds.
-/

namespace LivePage

/-- The count that a receiver is told, if it has fallen behind. -/
def lag? {α : Type} : Except ReceiveError α → Option Nat
  | .error (.lagged n) => some n
  | .error (.failed _) | .ok _ => none

namespace Wire

variable {c : Channel Event} {p : Nat}

/-- What becomes of a receiver of events that waits for the next one. -/
theorem receive_cases (h : p ≤ c.sent) :
    (∃ e, p < c.sent ∧ events.read c p .receive = (.ok (some e), p + 1)) ∨
      (∃ n, p + n + c.size = c.sent ∧ events.read c p .receive = (.error (.lagged n), c.sent)) ∨
      p = c.sent ∧ events.read c p .receive = (.ok none, p) := by
  simp only [read]
  split
  · next e hr =>
    exact .inl ⟨e, Channel.lt_sent (Channel.read_eq_message_iff.mp hr).2, rfl⟩
  · next n hr =>
    obtain ⟨behind, rfl⟩ := Channel.read_eq_missed_iff.mp hr
    refine .inr (.inl ⟨_, ?_, rfl⟩)
    unfold Channel.oldest at behind ⊢
    omega
  · next hr =>
    exact .inr (.inr ⟨Nat.le_antisymm h (Channel.read_eq_nothing_iff.mp hr).2, rfl⟩)

end Wire

namespace Service

variable {rx : Nat} {ops : List Operation}

/-- The counts that a receiver is told. -/
def lags (w : Wire) (rx : Nat) (answers : List Answer) : List Nat :=
  (results w rx answers).filterMap lag?

/-- How many messages are either delivered or lost, where a channel holds so many. -/
def passed {α : Type} (size : Nat) (results : List (Except ReceiveError (Option α))) : Nat :=
  (results.filterMap delivered?).length + ((results.filterMap lag?).map (· + size)).sum

theorem passed_append {α : Type} (size : Nat) (rs rest : List (Except ReceiveError (Option α))) :
    passed size (rs ++ rest) = passed size rs + passed size rest := by
  simp only [passed, List.filterMap_append, List.length_append, List.map_append, List.sum_append]
  omega

@[simp] theorem passed_nil {α : Type} (size : Nat) : passed (α := α) size [] = 0 := rfl

@[simp] theorem passed_message {α : Type} (size : Nat) (m : α) : passed size [.ok (some m)] = 1 :=
  rfl

@[simp] theorem passed_lagged {α : Type} (size n : Nat) :
    passed (α := α) size [.error (.lagged n)] = n + size := Nat.zero_add _

@[simp] theorem passed_nothing {α : Type} (size : Nat) : passed (α := α) size [.ok none] = 0 := rfl

namespace View

variable {v : View .events} {op : Operation} {p : Nat}

/-- By waiting for the next event, a receiver passes what is not pending any more. -/
theorem Within.passed_receive (h : v.Within rx) (hp : v.place? = some p) :
    passed v.channel.size (v.told? rx (.read .receive .events rx)).toList +
      (v.after rx (.read .receive .events rx)).pending.length = v.pending.length := by
  rw [told?_read hp, length_pending (pending_read hp .receive).1, length_pending hp,
    show (v.after rx (.read .receive .events rx)).channel = v.channel by simp [View.after]]
  rcases Wire.receive_cases (h.place_le p hp) with ⟨e, lt, hr⟩ | ⟨n, all, hr⟩ | ⟨rfl, hr⟩ <;>
    simp only [hr, Option.toList_some, passed_message, passed_lagged, passed_nothing] <;> omega

/-- Nothing is passed that was not pending before or is just sent, and all of it is passed or
pending behind. -/
theorem Within.passed_told (h : v.Within rx) (hp : v.place? = some p)
    (unpolled : op ≠ .read .poll .events rx) (kept : op ≠ .drop .events rx) :
    (∃ q, (v.after rx op).place? = some q) ∧
      passed v.channel.size (v.told? rx op).toList + (v.after rx op).pending.length =
        v.pending.length + (op.message? .events).toList.length := by
  by_cases waits : op = .read .receive .events rx
  · subst waits
    exact ⟨⟨_, (pending_read hp .receive).1⟩, h.passed_receive hp⟩
  · have unread (mode : Mode) : op ≠ .read mode .events rx := by
      cases mode with
      | receive => exact waits
      | poll => exact unpolled
    obtain ⟨silent, place, same⟩ := h.after_of_idle hp unread kept
    refine ⟨⟨p, place⟩, ?_⟩
    rw [silent, same, List.length_append]
    exact Nat.zero_add _

theorem Within.passed_run (h : v.Within rx) (hp : v.place? = some p)
    (unpolled : .read .poll .events rx ∉ ops) (kept : .drop .events rx ∉ ops) :
    (∃ q, (v.run rx ops).2.place? = some q) ∧
      passed v.channel.size (v.run rx ops).1 + (v.run rx ops).2.pending.length =
        v.pending.length + (messages .events ops).length := by
  induction ops generalizing v p with
  | nil => exact ⟨⟨p, hp⟩, Nat.zero_add _⟩
  | cons op r ih =>
    obtain ⟨⟨q, hq⟩, now⟩ := h.passed_told hp (List.ne_of_not_mem_cons unpolled).symm
      (List.ne_of_not_mem_cons kept).symm
    obtain ⟨place, rest⟩ := ih (h.after op) hq (List.not_mem_of_not_mem_cons unpolled)
      (List.not_mem_of_not_mem_cons kept)
    refine ⟨place, ?_⟩
    rw [size_after] at rest
    rw [run_cons, passed_append, messages_cons, List.length_append]
    dsimp only
    omega

/-- A receiver that waits and is not told anything has nothing pending. -/
theorem Within.pending_of_told_nothing (h : v.Within rx) (hp : v.place? = some p)
    (empty : v.told? rx (.read .receive .events rx) = some (.ok none)) : v.pending = [] := by
  rw [told?_read hp] at empty
  rw [← List.length_eq_zero_iff, length_pending hp]
  rcases Wire.receive_cases (h.place_le p hp) with ⟨e, -, hr⟩ | ⟨n, -, hr⟩ | ⟨rfl, -⟩
  · simp [hr] at empty
  · simp [hr] at empty
  · exact Nat.sub_self _

end View

/-- The counts alone do not make up for what is not delivered: of five events, a receiver is told
to have missed three where the channel holds two, and there is nothing left for it then. -/
theorem not_delivered_add_lags : ¬ ∀ (capacity : Nat) (later : List Operation),
    (∀ op ∈ later, op = .read .receive .events 0 ∨ ∃ e, op = .send .events e) →
    let run := replies step (start capacity) (.subscribe :: later)
    (run.2.step (.read .receive .events 0)).1.result? .events 0 = some (.ok none) →
    (delivered .events 0 run.1).length + (lags .events 0 run.1).sum =
      (messages .events later).length := by
  intro h
  have five := h 2 (.replicate 5 (.send .events ⟨.cacheCleared, []⟩) ++ [.read .receive .events 0])
    (by simp [List.replicate]) (by with_unfolding_all rfl)
  revert five
  decide +kernel

/-- Where nothing is left for a receiver of events that has only ever waited for the next one, all
events sent since it subscribed are accounted for, if each count that it was told is taken for that
many events and as many more as the channel holds. -/
theorem delivered_add_lost (capacity : Nat) (ops later : List Operation) :
    let s := (replies step (start capacity) ops).2
    let rx := s.bus.subscriptions
    let run := replies step s (.subscribe :: later)
    .read .poll .events rx ∉ later → .drop .events rx ∉ later →
    (run.2.step (.read .receive .events rx)).1.result? .events rx = some (.ok none) →
    (delivered .events rx run.1).length +
      ((lags .events rx run.1).map (· + (max capacity 1).nextPowerOfTwo)).sum =
        (messages .events later).length := by
  intro s rx run unpolled kept empty
  have sound : s.Sound := sound_replies_start capacity ops
  have last : run.2.Sound := (sound_replies sound .events rx (.subscribe :: later)).1
  obtain ⟨told, seen⟩ := sound.replies_subscribe .events later
  have within : (s.entry .events).Within rx := s.within_entry .events
  have size : (s.entry .events).channel.size = _ := size_replies_start capacity ops .events
  obtain ⟨⟨p, hp⟩, all⟩ := within.passed_run rfl unpolled kept
  rw [(sound_step last (.read .receive .events rx) .events rx).2.2, seen] at empty
  rw [(within.run later).pending_of_told_nothing hp empty, pending_entry, size, ← told] at all
  exact all.trans (Nat.zero_add _)

/-- Of six events, where the channel holds two, a receiver that looks after the fifth is told to
have missed three, and delivers the sixth. -/
theorem delivered_add_lost_of_six :
    let later : List Operation := .replicate 5 (.send .events ⟨.cacheCleared, []⟩) ++
      [.read .receive .events 0, .send .events ⟨.navigate, []⟩, .read .receive .events 0]
    let run := replies step (start 2) (.subscribe :: later)
    .read .poll .events 0 ∉ later ∧ .drop .events 0 ∉ later ∧
      (run.2.step (.read .receive .events 0)).1.result? .events 0 = some (.ok none) ∧
      delivered .events 0 run.1 = [⟨.navigate, []⟩] ∧ lags .events 0 run.1 = [3] ∧
      (delivered .events 0 run.1).length +
        ((lags .events 0 run.1).map (· + (max 2 1).nextPowerOfTwo)).sum = 6 := by
  intro later run
  have unpolled : .read .poll .events 0 ∉ later := by simp [later, List.replicate]
  have kept : .drop .events 0 ∉ later := by simp [later, List.replicate]
  have empty : (run.2.step (.read .receive .events 0)).1.result? .events 0 = some (.ok none) := by
    with_unfolding_all rfl
  exact ⟨unpolled, kept, empty, by with_unfolding_all rfl, by with_unfolding_all rfl,
    delivered_add_lost 2 [] later unpolled kept empty⟩

end Service

end LivePage
