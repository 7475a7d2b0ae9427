import Mathlib.Data.List.Infix
import LivePage.Proofs.Event.Service

/-!
# What is delivered

Whatever is done with a bus, no message is refused, and a receiver delivers messages that were sent
on its channel since it subscribed, in their order and none twice.  It delivers all of them unless
it falls behind by more than the channel holds.  What other receivers do, and what is done with the
other channel, makes no difference to it.
-/

namespace LivePage

namespace Channel

variable {α : Type} {c : Channel α} {p : Nat}

/-- What is behind a place, once one more message is sent. -/
theorem drop_log_send (h : p ≤ c.sent) (a : α) :
    (c.send a).log.toList.drop p = c.log.toList.drop p ++ [a] := by
  rw [toList_log_send, List.drop_append_of_le_length (by simpa [sent] using h)]

theorem drop_log_eq_cons {m : α} (h : c.log[p]? = some m) :
    c.log.toList.drop p = m :: c.log.toList.drop (p + 1) := by
  obtain ⟨hp, rfl⟩ := Array.getElem?_eq_some_iff.mp h
  rw [List.drop_eq_getElem_cons (by simpa using hp), Array.getElem_toList]

theorem lt_sent {m : α} (h : c.log[p]? = some m) : p < c.sent :=
  (Array.getElem?_eq_some_iff.mp h).1

theorem read_eq_message_iff {m : α} :
    c.read p = .message m ↔ c.oldest ≤ p ∧ c.log[p]? = some m := by
  unfold read
  split
  · simp
    omega
  · next h =>
    cases c.log[p]? <;> simp [Nat.not_lt.mp h]

theorem read_eq_missed_iff {n : Nat} :
    c.read p = .missed n ↔ p < c.oldest ∧ n = c.oldest - p := by
  unfold read
  split
  · next h => simp [h, eq_comm]
  · next h => cases c.log[p]? <;> simp [h]

theorem read_eq_nothing_iff : c.read p = .nothing ↔ c.oldest ≤ p ∧ c.sent ≤ p := by
  unfold read
  split
  · simp
    omega
  · next h =>
    cases hm : c.log[p]? with
    | none => simpa [Nat.not_lt.mp h, sent] using hm
    | some m => simpa [Nat.not_lt.mp h] using lt_sent hm

theorem oldest_le_sent (c : Channel α) : c.oldest ≤ c.sent := Nat.sub_le ..

end Channel

/-- The message that is delivered, if any. -/
def delivered? {α : Type} : Except ReceiveError (Option α) → Option α
  | .ok m? => m?
  | .error _ => none

namespace Wire

variable {w : Wire} {c : Channel w.Message} {p : Nat}

theorem le_resume (h : p < c.oldest) : p ≤ w.resume c ∧ w.resume c ≤ c.sent := by
  have := c.oldest_le_sent
  cases w <;> simp only [resume] <;> omega

/-- Whatever a receiver is told, it does not go back; what it delivers is at its place or behind,
and it goes on behind that. -/
theorem read_cases (h : p ≤ c.sent) (mode : Mode) :
    (delivered? (w.read c p mode).1 = none ∧ p ≤ (w.read c p mode).2 ∧
        (w.read c p mode).2 ≤ c.sent) ∨
      ∃ i m, p ≤ i ∧ c.log[i]? = some m ∧ w.read c p mode = (.ok (some m), i + 1) := by
  unfold read
  split
  · split
    · next m q hn =>
      obtain ⟨m', hm, ⟨⟩⟩ := Option.map_eq_some_iff.mp hn
      exact .inr ⟨_, _, Nat.le_max_left .., hm, rfl⟩
    · exact .inl ⟨rfl, Nat.le_refl _, h⟩
  · split
    · next m hr => exact .inr ⟨p, m, Nat.le_refl _, (Channel.read_eq_message_iff.mp hr).2, rfl⟩
    · next n hr =>
      refine .inl ⟨?_, le_resume (Channel.read_eq_missed_iff.mp hr).1⟩
      split <;> rfl
    · exact .inl ⟨rfl, Nat.le_refl _, h⟩

/-- A receiver that has missed nothing is told what is at its place. -/
theorem read_of_oldest_le (h : c.oldest ≤ p) (mode : Mode) :
    w.read c p mode = (.ok c.log[p]?, if p < c.sent then p + 1 else p) := by
  unfold read
  split
  · next c =>
    rw [Channel.next?, Nat.max_eq_left h]
    cases hm : c.log[p]? with
    | none => simp [Nat.not_lt.mpr (show c.sent ≤ p from Array.getElem?_eq_none_iff.mp hm)]
    | some m => simp [Channel.lt_sent hm]
  · split
    · next m hr =>
      obtain ⟨-, hm⟩ := Channel.read_eq_message_iff.mp hr
      rw [hm, if_pos (Channel.lt_sent hm)]
    · next n hr => exact absurd (Channel.read_eq_missed_iff.mp hr).1 (Nat.not_lt.mpr h)
    · next hr =>
      obtain ⟨-, hp⟩ := Channel.read_eq_nothing_iff.mp hr
      rw [if_neg (Nat.not_lt.mpr hp), Array.getElem?_eq_none_iff.mpr hp]

end Wire

namespace Service

variable {w : Wire} {rx : Nat}

/-- The messages that are sent on a channel. -/
def messages (w : Wire) (ops : List Operation) : List w.Message := ops.filterMap (·.message? w)

/-- What a receiver is told. -/
def results (w : Wire) (rx : Nat) (answers : List Answer) :
    List (Except ReceiveError (Option w.Message)) := answers.filterMap (·.result? w rx)

/-- The messages that a receiver delivers. -/
def delivered (w : Wire) (rx : Nat) (answers : List Answer) : List w.Message :=
  (results w rx answers).filterMap delivered?

namespace View

/-- What a receiver is told by operations one after another, and what it sees behind them. -/
def run (rx : Nat) : List Operation → View w →
    List (Except ReceiveError (Option w.Message)) × View w
  | [], v => ([], v)
  | op :: r, v =>
    let (rest, last) := run rx r (v.after rx op)
    ((v.told? rx op).toList ++ rest, last)

variable {v : View w} {op : Operation} {ops : List Operation} {p : Nat}

theorem run_cons (rx : Nat) (v : View w) (op : Operation) (ops : List Operation) :
    v.run rx (op :: ops) = ((v.told? rx op).toList ++ ((v.after rx op).run rx ops).1,
      ((v.after rx op).run rx ops).2) := rfl

/-- What is of no concern to a receiver changes nothing that it sees. -/
theorem after_of_not_concerns (h : op.concerns w rx = false) :
    v.after rx op = v ∧ v.told? rx op = none := by
  cases op with
  | subscribe => cases h
  | send u m =>
    have hu : u ≠ w := by simpa [Operation.concerns] using h
    simp [after, told?, Operation.message?, hu]
  | read mode u i =>
    have e : ¬(u = w ∧ i = rx) := of_decide_eq_false h
    simp only [after, told?, if_neg e, and_self]
  | drop u i =>
    have e : ¬(u = w ∧ i = rx) := of_decide_eq_false h
    simp only [after, told?, if_neg e, and_self]

/-- What is of no concern to a receiver can be left out. -/
theorem run_filter_concerns (rx : Nat) (ops : List Operation) (v : View w) :
    v.run rx (ops.filter (·.concerns w rx)) = v.run rx ops := by
  induction ops generalizing v with
  | nil => rfl
  | cons op r ih =>
    by_cases h : op.concerns w rx
    · rw [List.filter_cons_of_pos h, run_cons, run_cons, ih]
    · obtain ⟨same, silent⟩ := after_of_not_concerns (v := v) (Bool.not_eq_true _ ▸ h)
      rw [List.filter_cons_of_neg h, run_cons, same, silent, ih]
      rfl

/-- What a receiver has not read yet. -/
def pending (v : View w) : List w.Message :=
  (v.place?.map (v.channel.log.toList.drop ·)).getD []

/-- A receiver is made already, and is not behind the end of its channel. -/
structure Within (rx : Nat) (v : View w) : Prop where
  used : rx < v.next
  place_le (p : Nat) : v.place? = some p → p ≤ v.channel.sent

theorem pending_of_some (h : v.place? = some p) : v.pending = v.channel.log.toList.drop p := by
  rw [pending, h]
  rfl

theorem pending_of_none (h : v.place? = none) : v.pending = [] := by
  rw [pending, h]
  rfl

theorem length_pending (h : v.place? = some p) : v.pending.length = v.channel.sent - p := by
  rw [pending_of_some h, List.length_drop, Array.length_toList, Channel.sent]

theorem Within.after (h : v.Within rx) (op : Operation) : (v.after rx op).Within rx := by
  cases op with
  | subscribe =>
    refine ⟨Nat.lt_succ_of_lt h.used, ?_⟩
    simpa [View.after, Nat.ne_of_gt h.used] using h.place_le
  | send u m =>
    simp only [View.after]
    split
    · exact ⟨h.used, fun p hp ↦ by simpa using Nat.le_succ_of_le (h.place_le p hp)⟩
    · exact h
  | read mode u i =>
    simp only [View.after]
    split
    · refine ⟨h.used, fun q hq ↦ ?_⟩
      obtain ⟨p, hp, rfl⟩ := Option.map_eq_some_iff.mp hq
      rcases Wire.read_cases (h.place_le p hp) mode with ⟨-, -, le⟩ | ⟨j, m, -, hm, hr⟩
      · exact le
      · rw [hr]
        exact Channel.lt_sent hm
    · exact h
  | drop u i =>
    simp only [View.after]
    split
    · refine ⟨h.used, fun q hq ↦ ?_⟩
      cases hq
    · exact h

/-- A receiver that was let go delivers nothing any more. -/
theorem Within.after_of_none (h : v.Within rx) (hp : v.place? = none) (op : Operation) :
    (v.after rx op).place? = none ∧ (v.told? rx op).toList.filterMap delivered? = [] := by
  cases op with
  | subscribe => simp [View.after, told?, Nat.ne_of_gt h.used, hp]
  | send u m =>
    simp only [View.after]
    split <;> exact ⟨hp, rfl⟩
  | read mode u i =>
    simp only [View.after, told?]
    split
    · simp [hp, delivered?]
    · exact ⟨hp, rfl⟩
  | drop u i =>
    simp only [View.after]
    split
    · exact ⟨rfl, rfl⟩
    · exact ⟨hp, rfl⟩

/-- While a receiver does nothing itself, it keeps its place, and what is sent is pending. -/
theorem Within.after_of_idle (h : v.Within rx) (hp : v.place? = some p)
    (unread : ∀ mode, op ≠ .read mode w rx) (kept : op ≠ .drop w rx) :
    v.told? rx op = none ∧ (v.after rx op).place? = some p ∧
      (v.after rx op).pending = v.pending ++ (op.message? w).toList := by
  cases op with
  | subscribe =>
    have place : (v.after rx .subscribe).place? = v.place? := if_neg (Nat.ne_of_gt h.used)
    rw [pending_of_some hp, pending_of_some (place.trans hp)]
    exact ⟨rfl, place.trans hp, (List.append_nil _).symm⟩
  | send u m =>
    simp only [View.after]
    cases hm : (Operation.send u m).message? w with
    | none => exact ⟨rfl, hp, (List.append_nil _).symm⟩
    | some m =>
      refine ⟨rfl, hp, ?_⟩
      rw [pending_of_some hp, pending_of_some (v := { v with channel := v.channel.send m }) hp]
      exact Channel.drop_log_send (h.place_le p hp) m
  | read mode u i =>
    have e : ¬(u = w ∧ i = rx) := by
      rintro ⟨rfl, rfl⟩
      exact unread mode rfl
    simp only [View.after, told?, if_neg e]
    exact ⟨trivial, hp, (List.append_nil _).symm⟩
  | drop u i =>
    have e : ¬(u = w ∧ i = rx) := by
      rintro ⟨rfl, rfl⟩
      exact kept rfl
    simp only [View.after, told?, if_neg e]
    exact ⟨trivial, hp, (List.append_nil _).symm⟩

theorem told?_read (hp : v.place? = some p) (mode : Mode) :
    v.told? rx (.read mode w rx) = some (w.read v.channel p mode).1 := by
  simp [told?, hp]

theorem pending_read (hp : v.place? = some p) (mode : Mode) :
    (v.after rx (.read mode w rx)).place? = some (w.read v.channel p mode).2 ∧
      (v.after rx (.read mode w rx)).pending =
        v.channel.log.toList.drop (w.read v.channel p mode).2 := by
  simp [View.after, pending, hp]

/-- What a receiver delivers and what is pending behind that was pending before, or is just sent. -/
theorem Within.told_sublist (h : v.Within rx) (op : Operation) :
    ((v.told? rx op).toList.filterMap delivered? ++ (v.after rx op).pending).Sublist
      (v.pending ++ (op.message? w).toList) := by
  cases hp : v.place? with
  | none =>
    obtain ⟨gone, silent⟩ := h.after_of_none hp op
    rw [silent, pending_of_none gone]
    exact List.nil_sublist _
  | some p =>
    by_cases kept : op = .drop w rx
    · subst kept
      simp [told?, View.after, pending]
    · by_cases unread : ∃ mode, op = .read mode w rx
      · obtain ⟨mode, rfl⟩ := unread
        rw [told?_read hp, (pending_read hp mode).2, pending_of_some hp]
        refine .trans ?_ (List.sublist_append_left ..)
        rcases Wire.read_cases (h.place_le p hp) mode with ⟨hn, le, -⟩ | ⟨i, m, le, hm, hr⟩
        · simpa [hn] using List.drop_sublist_drop_left _ le
        · rw [hr]
          change (m :: v.channel.log.toList.drop (i + 1)).Sublist _
          rw [← Channel.drop_log_eq_cons hm]
          exact List.drop_sublist_drop_left _ le
      · obtain ⟨silent, -, same⟩ := h.after_of_idle hp (not_exists.mp unread) kept
        rw [silent, same]
        exact .refl _

theorem messages_cons (w : Wire) (op : Operation) (ops : List Operation) :
    messages w (op :: ops) = (op.message? w).toList ++ messages w ops := by
  rw [messages, List.filterMap_cons]
  cases op.message? w <;> rfl

theorem delivered_run_cons (rx : Nat) (v : View w) (op : Operation) (ops : List Operation) :
    (v.run rx (op :: ops)).1.filterMap delivered? =
      (v.told? rx op).toList.filterMap delivered? ++
        ((v.after rx op).run rx ops).1.filterMap delivered? := by
  rw [run_cons, List.filterMap_append]

/-- What a receiver delivers was pending or is sent later. -/
theorem Within.delivered_sublist (h : v.Within rx) (ops : List Operation) :
    ((v.run rx ops).1.filterMap delivered?).Sublist (v.pending ++ messages w ops) := by
  induction ops generalizing v with
  | nil => exact List.nil_sublist _
  | cons op r ih =>
    rw [delivered_run_cons, messages_cons, ← List.append_assoc]
    refine ((ih (h.after op)).append_left _).trans ?_
    rw [← List.append_assoc]
    exact (h.told_sublist op).append_right _

@[simp] theorem size_after (rx : Nat) (v : View w) (op : Operation) :
    (v.after rx op).channel.size = v.channel.size := by
  cases op with
  | subscribe => rfl
  | send u m =>
    simp only [after]
    split <;> rfl
  | read mode u i | drop u i =>
    simp only [after]
    split <;> rfl

/-- A receiver that has missed nothing delivers the first message that is pending. -/
theorem Within.told_eq (h : v.Within rx) (hp : v.place? = some p)
    (near : v.pending.length ≤ v.channel.size) (mode : Mode) :
    v.told? rx (.read mode w rx) = some (.ok v.pending.head?) ∧
      (v.after rx (.read mode w rx)).pending = v.pending.tail := by
  have place := h.place_le p hp
  have readable : v.channel.oldest ≤ p := by
    rw [length_pending hp] at near
    unfold Channel.oldest
    omega
  rw [told?_read hp, (pending_read hp mode).2, Wire.read_of_oldest_le readable, pending_of_some hp]
  simp only [List.head?_drop, List.tail_drop, Array.getElem?_toList]
  refine ⟨trivial, ?_⟩
  split
  · rfl
  · next behind =>
    have all : v.channel.log.toList.length ≤ p := by simpa [Channel.sent] using behind
    rw [List.drop_of_length_le all, List.drop_of_length_le (Nat.le_succ_of_le all)]

/-- A receiver that has missed nothing loses nothing: what it delivers and what is pending behind
that was pending before, or is just sent. -/
theorem Within.told_append_pending (h : v.Within rx) (hp : v.place? = some p)
    (near : v.pending.length ≤ v.channel.size) (kept : op ≠ .drop w rx) :
    (∃ q, (v.after rx op).place? = some q) ∧
      (v.told? rx op).toList.filterMap delivered? ++ (v.after rx op).pending =
        v.pending ++ (op.message? w).toList := by
  by_cases unread : ∃ mode, op = .read mode w rx
  · obtain ⟨mode, rfl⟩ := unread
    obtain ⟨told, rest⟩ := h.told_eq hp near mode
    refine ⟨⟨_, (pending_read hp mode).1⟩, ?_⟩
    rw [told, rest]
    cases v.pending <;> simp [delivered?, Operation.message?]
  · obtain ⟨silent, place, same⟩ := h.after_of_idle hp (not_exists.mp unread) kept
    rw [silent, same]
    exact ⟨⟨p, place⟩, rfl⟩

/-- A receiver that is never behind by more than the channel holds delivers, in their order, all
that was pending and all that is sent, up to what is still pending then. -/
theorem Within.delivered_append_pending (h : v.Within rx) (hp : v.place? = some p)
    (kept : .drop w rx ∉ ops)
    (near : ∀ front, front <+: ops → v.pending.length + (messages w front).length ≤
      ((v.run rx front).1.filterMap delivered?).length + v.channel.size) :
    (∃ q, (v.run rx ops).2.place? = some q) ∧
      (v.run rx ops).1.filterMap delivered? ++ (v.run rx ops).2.pending =
        v.pending ++ messages w ops := by
  induction ops generalizing v p with
  | nil => exact ⟨⟨p, hp⟩, (List.append_nil _).symm⟩
  | cons op r ih =>
    have now : v.pending.length ≤ v.channel.size := by
      simpa [messages, run] using near [] (List.nil_prefix ..)
    have own : op ≠ .drop w rx := fun e ↦ kept (e ▸ .head _)
    obtain ⟨⟨q, hq⟩, same⟩ := h.told_append_pending hp now own
    obtain ⟨place, rest⟩ := ih (h.after op) hq (fun hm ↦ kept (.tail _ hm)) fun front hf ↦ by
      have later := near (op :: front) (List.cons_prefix_cons.mpr ⟨rfl, hf⟩)
      have lengths := congrArg List.length same
      simp only [delivered_run_cons, messages_cons, List.length_append, size_after]
        at later lengths ⊢
      omega
    refine ⟨place, ?_⟩
    rw [delivered_run_cons, messages_cons, List.append_assoc]
    calc _ = _ ++ ((v.after rx op).pending ++ messages w r) := congrArg _ rest
      _ = _ := by rw [← List.append_assoc, same, List.append_assoc]

theorem run_append (rx : Nat) (v : View w) (ops more : List Operation) :
    v.run rx (ops ++ more) =
      ((v.run rx ops).1 ++ ((v.run rx ops).2.run rx more).1, ((v.run rx ops).2.run rx more).2) := by
  induction ops generalizing v with
  | nil => rfl
  | cons op r ih => simp only [List.cons_append, run_cons, ih, List.append_assoc]

@[simp] theorem size_run (rx : Nat) (v : View w) (ops : List Operation) :
    (v.run rx ops).2.channel.size = v.channel.size := by
  induction ops generalizing v with
  | nil => rfl
  | cons op r ih => rw [run_cons, ih, size_after]

theorem Within.run (h : v.Within rx) (ops : List Operation) : (v.run rx ops).2.Within rx := by
  induction ops generalizing v with
  | nil => exact h
  | cons op r ih => exact ih (h.after op)

/-- A receiver that has missed nothing delivers what is pending by reading on. -/
theorem Within.delivered_reads (h : v.Within rx) (hp : v.place? = some p)
    (near : v.pending.length ≤ v.channel.size) (modes : List Mode) :
    (v.run rx (modes.map (.read · w rx))).1.filterMap delivered? = v.pending.take modes.length := by
  induction modes generalizing v p with
  | nil => rfl
  | cons mode r ih =>
    obtain ⟨told, rest⟩ := h.told_eq hp near mode
    have near : (v.after rx (.read mode w rx)).pending.length ≤
        (v.after rx (.read mode w rx)).channel.size := by
      rw [rest, size_after, List.length_tail]
      omega
    rw [List.map_cons, delivered_run_cons, told, ih (h.after _) (pending_read hp mode).1 near, rest]
    cases v.pending <;> simp [delivered?]

end View

/-- What a service does is, for a receiver, what it does to what the receiver sees. -/
theorem sound_replies {s : Service} (h : s.Sound) (w : Wire) (rx : Nat) (ops : List Operation) :
    (replies step s ops).2.Sound ∧
      (replies step s ops).2.view w rx = ((s.view w rx).run rx ops).2 ∧
      results w rx (replies step s ops).1 = ((s.view w rx).run rx ops).1 := by
  induction ops generalizing s with
  | nil => exact ⟨h, rfl, rfl⟩
  | cons op r ih =>
    obtain ⟨sound, seen, told⟩ := sound_step h op w rx
    obtain ⟨sound, last, rest⟩ := ih sound
    rw [replies_cons, View.run_cons, ← seen, ← told, ← rest]
    refine ⟨sound, last, ?_⟩
    simp only [results, List.filterMap_cons]
    cases (s.step op).1.result? w rx <;> rfl

theorem sound_replies_start (capacity : Nat) (ops : List Operation) :
    (replies step (start capacity) ops).2.Sound :=
  (sound_replies (.start capacity) .events 0 ops).1

theorem size_replies_start (capacity : Nat) (ops : List Operation) (w : Wire) :
    ((replies step (start capacity) ops).2.bus.channel w).size =
      (max capacity 1).nextPowerOfTwo := by
  have h := congrArg (·.channel.size) (sound_replies (.start capacity) w 0 ops).2.1
  refine h.trans ((View.size_run ..).trans ?_)
  cases w <;> rfl

/-- What the next receiver sees once it has subscribed. -/
def entry (s : Service) (w : Wire) : View w :=
  ⟨s.bus.channel w, some (s.bus.channel w).sent, s.bus.subscriptions + 1⟩

theorem within_entry (s : Service) (w : Wire) : (s.entry w).Within s.bus.subscriptions where
  used := Nat.lt_succ_self _
  place_le _ hp := Nat.le_of_eq (Option.some.inj hp).symm

@[simp] theorem pending_entry (s : Service) (w : Wire) : (s.entry w).pending = [] := by
  simp [entry, View.pending, Channel.sent]

theorem Sound.view_subscribe {s : Service} (h : s.Sound) (w : Wire) :
    (s.step .subscribe).2.view w s.bus.subscriptions = s.entry w := by
  rw [(sound_step h .subscribe w s.bus.subscriptions).2.1]
  simp [View.after, view, entry]

/-- What a receiver is told that subscribes, and what it sees then. -/
theorem Sound.replies_subscribe {s : Service} (h : s.Sound) (w : Wire) (later : List Operation) :
    results w s.bus.subscriptions (replies step s (.subscribe :: later)).1 =
        ((s.entry w).run s.bus.subscriptions later).1 ∧
      (replies step s (.subscribe :: later)).2.view w s.bus.subscriptions =
        ((s.entry w).run s.bus.subscriptions later).2 := by
  obtain ⟨-, seen, told⟩ := sound_replies h.subscribe w s.bus.subscriptions later
  rw [← h.view_subscribe]
  exact ⟨told, seen⟩

/-- Whatever was done with a bus, a message is not refused, and what a receiver has been told does
not depend on what was done with the other channel and by other receivers.  A receiver that
subscribes then delivers messages that are sent on its channel from now on, in their order, each
once at most.  As long as it is not behind by more than the channel holds, it delivers all of them,
once it has read on often enough. -/
theorem delivers_what_is_sent (capacity : Nat) (ops later : List Operation) (w : Wire) :
    let s := (replies step (start capacity) ops).2
    let rx := s.bus.subscriptions
    let answers (later : List Operation) := (replies step s (.subscribe :: later)).1
    (∀ v m, (s.step (.send v m)).1 = .sent true) ∧
      (∀ v i, results v i (replies step (start capacity) ops).1 =
        results v i (replies step (start capacity) (ops.filter (·.concerns v i))).1) ∧
      (delivered w rx (answers later)).Sublist (messages w later) ∧
      (.drop w rx ∉ later →
        (∀ front, front <+: later → (messages w front).length ≤
          (delivered w rx (answers front)).length + (max capacity 1).nextPowerOfTwo) →
        ∀ modes : List Mode,
          (messages w later).length ≤ (delivered w rx (answers later)).length + modes.length →
          delivered w rx (answers (later ++ modes.map (.read · w rx))) = messages w later) := by
  intro s rx answers
  have sound : s.Sound := sound_replies_start capacity ops
  have within : (s.entry w).Within rx := s.within_entry w
  have size : (s.entry w).channel.size = _ := size_replies_start capacity ops w
  have delivered_eq (later : List Operation) :
      delivered w rx (answers later) = ((s.entry w).run rx later).1.filterMap delivered? :=
    congrArg (List.filterMap delivered?) (sound.replies_subscribe w later).1
  simp only [delivered_eq]
  refine ⟨fun v m ↦ by rw [sound.step_send], fun u i ↦ ?_, ?_, fun kept near modes enough ↦ ?_⟩
  · rw [(sound_replies (.start capacity) u i _).2.2, (sound_replies (.start capacity) u i _).2.2,
      View.run_filter_concerns]
  · simpa using within.delivered_sublist later
  · obtain ⟨⟨p, hp⟩, same⟩ := within.delivered_append_pending rfl kept (by simpa [size] using near)
    rw [pending_entry, List.nil_append] at same
    have lengths := congrArg List.length same
    rw [List.length_append] at lengths
    have close : ((s.entry w).run rx later).2.pending.length ≤
        ((s.entry w).run rx later).2.channel.size := by
      have := near later (List.prefix_refl _)
      rw [View.size_run, size]
      omega
    rw [View.run_append, List.filterMap_append, (within.run later).delivered_reads hp close,
      List.take_of_length_le (by omega), same]

/-- With room for one event, a receiver that reads each event before the next one is sent. -/
theorem delivers_what_is_sent_in_turn :
    let ops : List Operation := [.subscribe, .send .events ⟨.navigate, []⟩]
    let later : List Operation :=
      [.send .events ⟨.openModal, []⟩, .read .receive .events 1, .send .errors ⟨"", "", .error, []⟩,
        .send .events ⟨.closeModal, []⟩]
    let s := (replies step (start 1) ops).2
    let answers (later : List Operation) := (replies step s (.subscribe :: later)).1
    .drop .events 1 ∉ later ∧
      (∀ front, front <+: later → (messages .events front).length ≤
        (delivered .events 1 (answers front)).length + (max 1 1).nextPowerOfTwo) ∧
      delivered .events 1 (answers (later ++ [.read .poll .events 1])) =
        [⟨.openModal, []⟩, ⟨.closeModal, []⟩] := by
  intro ops later s answers
  have kept : .drop .events 1 ∉ later := by simp [later]
  have near (front : List Operation) (h : front <+: later) : (messages .events front).length ≤
      (delivered .events 1 (answers front)).length + (max 1 1).nextPowerOfTwo := by
    rw [← List.mem_inits] at h
    revert front
    simp only [later, List.inits, List.map_cons, List.map_nil, List.forall_mem_cons]
    refine ⟨?_, ?_, ?_, ?_, ?_, nofun⟩ <;> decide +kernel
  exact ⟨kept, near, (delivers_what_is_sent 1 ops later .events).2.2.2 kept
    near [.poll] (by decide +kernel)⟩

end Service

end LivePage
