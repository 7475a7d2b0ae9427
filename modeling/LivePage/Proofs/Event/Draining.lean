import LivePage.Proofs.Event.Delivery

/-!
# What is retained

Of what a receiver has not read, a channel retains the last messages.  Polling goes on with the first
of them; but where a receiver of failures has missed some, the first poll finds nothing, and only the
next one goes on.
-/

namespace LivePage

namespace Service

variable {w : Wire} {rx : Nat}

namespace View

variable {v : View w} {p : Nat}

/-- What a receiver has not read and its channel still holds. -/
def retained (v : View w) : List w.Message := v.pending.drop (v.pending.length - v.channel.size)

/-- A receiver has fallen behind when its channel does not hold all that it has not read. -/
def Behind (v : View w) : Prop := v.channel.size < v.pending.length

/-- A receiver of failures that has fallen behind is not told what is retained, but that it is
behind. -/
def Stalls (v : View w) : Prop := w = .errors ∧ v.Behind

theorem retained_of_not_behind (h : ¬v.Behind) : v.retained = v.pending := by
  rw [retained, Nat.sub_eq_zero_of_le (Nat.le_of_not_lt h), List.drop_zero]

theorem behind_iff (h : v.Within rx) (hp : v.place? = some p) :
    v.Behind ↔ p < v.channel.oldest := by
  have := h.place_le p hp
  rw [Behind, length_pending hp, Channel.oldest]
  omega

theorem retained_of_behind (h : v.Within rx) (hp : v.place? = some p) (behind : v.Behind) :
    v.retained = v.channel.log.toList.drop v.channel.oldest := by
  have := h.place_le p hp
  have := (behind_iff h hp).mp behind
  rw [retained, length_pending hp, pending_of_some hp, List.drop_drop]
  unfold Channel.oldest at this ⊢
  congr 1
  omega

/-- What a receiver finds that polls, and what is pending then. -/
theorem Within.poll (h : v.Within rx) (hp : v.place? = some p) (room : 0 < v.channel.size) :
    (¬v.Stalls → v.told? rx (.read .poll w rx) = some (.ok v.retained.head?) ∧
        (v.after rx (.read .poll w rx)).pending = v.retained.tail) ∧
      (v.Stalls → v.told? rx (.read .poll w rx) = some (.ok none) ∧
        (v.after rx (.read .poll w rx)).pending = v.retained) := by
  by_cases behind : v.Behind
  · have gap := (behind_iff h hp).mp behind
    rw [told?_read hp, (pending_read hp .poll).2, retained_of_behind h hp behind]
    cases w with
    | events =>
      refine ⟨fun _ ↦ ?_, fun stalls ↦ nomatch stalls.1⟩
      have held : v.channel.oldest < v.channel.log.size := by
        unfold Channel.oldest Channel.sent at gap ⊢
        omega
      have next : v.channel.next? p =
          some (v.channel.log[v.channel.oldest], v.channel.oldest + 1) := by
        rw [Channel.next?, Nat.max_eq_right (Nat.le_of_lt gap), Array.getElem?_eq_getElem held]
        rfl
      simp [Wire.read, next, Array.getElem?_eq_getElem held]
    | errors =>
      refine ⟨fun goes ↦ absurd ⟨rfl, behind⟩ goes, fun _ ↦ ?_⟩
      have hr : v.channel.read p = .missed _ := Channel.read_eq_missed_iff.mpr ⟨gap, rfl⟩
      simp [Wire.read, hr, Wire.resume]
  · rw [retained_of_not_behind behind]
    exact ⟨fun _ ↦ h.told_eq hp (Nat.le_of_not_lt behind) .poll, fun stalls ↦ absurd stalls.2 behind⟩

/-- A poll does not leave a receiver behind. -/
theorem Within.not_behind_poll (h : v.Within rx) (hp : v.place? = some p)
    (room : 0 < v.channel.size) : ¬(v.after rx (.read .poll w rx)).Behind := by
  have short : v.retained.length ≤ v.channel.size := by
    rw [retained, List.length_drop]
    omega
  obtain ⟨goes, stalls⟩ := h.poll hp room
  rw [Behind, size_after, Nat.not_lt]
  by_cases hs : v.Stalls
  · rw [(stalls hs).2]
    exact short
  · rw [(goes hs).2, List.length_tail]
    omega

end View

/-- What a receiver delivers that polls until it is told nothing, but so many times at most. -/
def drain (w : Wire) (rx : Nat) : Nat → Service → List w.Message
  | 0, _ => []
  | n + 1, s =>
    match (s.step (.read .poll w rx)).1.result? w rx with
    | some (.ok (some m)) => m :: drain w rx n (s.step (.read .poll w rx)).2
    | _ => []

/-- A receiver that does not stall delivers what is retained by polling until it is told nothing. -/
theorem Sound.drain_eq {s : Service} {p : Nat} (h : s.Sound) (within : (s.view w rx).Within rx)
    (hp : (s.view w rx).place? = some p) (room : 0 < (s.view w rx).channel.size)
    (goes : ¬(s.view w rx).Stalls) (n : Nat) :
    drain w rx n s = (s.view w rx).retained.take n := by
  induction n generalizing s p with
  | zero => rfl
  | succ n ih =>
    obtain ⟨sound, seen, told⟩ := sound_step h (.read .poll w rx) w rx
    obtain ⟨now, rest⟩ := (within.poll hp room).1 goes
    have near := within.not_behind_poll hp room
    rw [drain, told, now]
    cases hm : (s.view w rx).retained with
    | nil => rfl
    | cons m ms =>
      have later := ih sound (seen ▸ within.after _) (seen ▸ (View.pending_read hp .poll).1)
        (by rwa [seen, View.size_after]) (seen ▸ fun stalls ↦ near stalls.2)
      rw [seen, View.retained_of_not_behind near, rest, hm] at later
      exact congrArg (m :: ·) later

/-- It is not so that a receiver that polls and is told nothing has read all that is retained: of two
failures, where the channel holds one, a receiver is told nothing at first. -/
theorem not_retained_nil_of_told_nothing : ¬ ∀ (capacity : Nat) (w : Wire) (later : List Operation),
    (∀ op ∈ later, op = .read .poll w 0 ∨ ∃ m, op = .send w m) →
    let s := (replies step (start capacity) (.subscribe :: later)).2
    (s.step (.read .poll w 0)).1.result? w 0 = some (.ok none) → (s.view w 0).retained = [] := by
  intro h
  have two := h 1 .errors (.replicate 2 (.send .errors ⟨"", "", .error, []⟩))
    (by simp [List.replicate]) (by with_unfolding_all rfl)
  revert two
  decide +kernel

/-- A receiver that polls is told the first message that is retained and nothing only where none is,
so that it delivers all of them if it polls until it is told nothing.  Only a receiver of failures
that has fallen behind is told nothing once, and then has everything before it that was retained. -/
theorem drains_retained (capacity : Nat) (ops later : List Operation) (w : Wire) :
    let rx := (replies step (start capacity) ops).2.bus.subscriptions
    let s := (replies step (replies step (start capacity) ops).2 (.subscribe :: later)).2
    let told := (s.step (.read .poll w rx)).1.result? w rx
    let next := (s.step (.read .poll w rx)).2
    some rx ∈ s.holders w →
      (¬(s.view w rx).Stalls → told = some (.ok (s.view w rx).retained.head?) ∧
        (next.view w rx).retained = (s.view w rx).retained.tail ∧
        ∀ n, (s.view w rx).retained.length ≤ n → drain w rx n s = (s.view w rx).retained) ∧
      ((s.view w rx).Stalls → told = some (.ok none) ∧ ¬(next.view w rx).Stalls ∧
        (next.view w rx).retained = (s.view w rx).retained ∧ ∀ n, drain w rx n s = []) := by
  intro rx s told next held
  have before := sound_replies_start capacity ops
  have sound : s.Sound := (sound_replies before w rx _).1
  have within : (s.view w rx).Within rx := by
    rw [(before.replies_subscribe w later).2]
    exact (within_entry _ w).run later
  obtain ⟨r, hr⟩ := Option.isSome_iff_exists.mp (sound.held held)
  have hp : (s.view w rx).place? = some (r.place w) := by simp [view, place?, held, hr]
  have room : 0 < (s.view w rx).channel.size := by
    rw [(before.replies_subscribe w later).2, View.size_run]
    exact (size_replies_start capacity ops w).symm ▸ Nat.pos_of_isPowerOfTwo
      (Nat.isPowerOfTwo_nextPowerOfTwo _)
  obtain ⟨-, seen, heard⟩ := sound_step sound (.read .poll w rx) w rx
  have near : ¬(next.view w rx).Behind := seen ▸ within.not_behind_poll hp room
  obtain ⟨goes, stalls⟩ := within.poll hp room
  rw [View.retained_of_not_behind near, seen, show told = _ from heard]
  refine ⟨fun h ↦ ⟨(goes h).1, (goes h).2, fun n hn ↦ ?_⟩, fun h ↦
    ⟨(stalls h).1, fun again ↦ near (seen ▸ again.2), (stalls h).2, fun n ↦ ?_⟩⟩
  · rw [sound.drain_eq within hp room h, List.take_of_length_le hn]
  · cases n with
    | zero => rfl
    | succ n => rw [drain, heard, (stalls h).1]

/-- Of two events, where the channel holds one, a receiver delivers the second. -/
theorem drains_retained_of_two :
    let later : List Operation :=
      [.send .events ⟨.cacheCleared, []⟩, .send .events ⟨.navigate, []⟩]
    let s := (replies step (start 1) (.subscribe :: later)).2
    some 0 ∈ s.holders .events ∧ ¬(s.view .events 0).Stalls ∧
      (s.view .events 0).retained = [⟨.navigate, []⟩] ∧
      drain .events 0 1 s = [⟨.navigate, []⟩] := by
  intro later s
  have held : some 0 ∈ s.holders .events := .head _
  have goes : ¬(s.view .events 0).Stalls := fun stalls ↦ nomatch stalls.1
  have retained : (s.view .events 0).retained = [⟨.navigate, []⟩] := by with_unfolding_all rfl
  obtain ⟨-, -, all⟩ := (drains_retained 1 [] later .events held).1 goes
  exact ⟨held, goes, retained, (all 1 (Nat.le_of_eq (congrArg List.length retained))).trans retained⟩

end Service

end LivePage
