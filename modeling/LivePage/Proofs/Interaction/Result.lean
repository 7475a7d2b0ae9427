import Mathlib
import LivePage.Proofs.Interaction.Overwrite
import LivePage.Proofs.Outcome
import LivePage.Proofs.Path.Text

/-!
# Results that are kept

The answer to a request, what a function returns and what a text comes to may be kept in the state,
at a path that the action names.  For requests and functions the path is rendered with the rest of
the configuration.  A text that is run takes its configuration as it stands, with the path.
-/

namespace LivePage

namespace Template

variable {env : Env} {m m' : Fields Value} {k : String} {v : Value}

/-- A rendered member is what the member renders to. -/
theorem get?_of_renderMembers (h : renderMembers env m = .ok m') (hv : m.get? k = some v) :
    ∃ w, render env v = .ok w ∧ m'.get? k = some w := by
  induction m generalizing m' with
  | nil => cases hv
  | cons head r ih =>
    obtain ⟨l, u⟩ := head
    rw [renderMembers] at h
    obtain ⟨w, hw, h⟩ := bind_eq_ok_iff.mp h
    obtain ⟨ws, hws, h⟩ := bind_eq_ok_iff.mp h
    cases h
    rw [Fields.get?] at hv ⊢
    split at hv
    · next here =>
      cases hv
      exact ⟨w, hw, if_pos here⟩
    · next other =>
      rw [if_neg other]
      exact ih hws hv

end Template

namespace Interaction

variable {s : Interaction} {key key' : String} {v : Value}

/-- What is stored in the state tells the path, whether the write succeeds or fails. -/
theorem setState_injective (h : s.setState key v = s.setState key' v) : key = key' := by
  unfold setState write at h
  split at h <;> split at h
  · have notices := congrArg (fun r ↦ r.1.notices) h
    simpa [notify, announce] using notices
  · cases (Prod.mk.inj h).2
  · cases (Prod.mk.inj h).2
  · have outcome := (Prod.mk.inj h).2
    simp only [Except.error.injEq, ActionError.assign.injEq] at outcome
    exact outcome.1

/-- What is stored in the state is found there. -/
theorem lookup_setState (h : (s.setState key v).2 = .ok ()) :
    (s.setState key v).1.context.lookup .state key = v := by
  unfold setState write at h ⊢
  split at h
  · next c assigned =>
    have found := Context.lookup_assign (congrArg Prod.snd assigned)
    rwa [assigned] at found
  · cases h

theorem context_ask (s : Interaction) (host : Host) (r : Request) :
    (s.ask host r).1.context = s.context := by
  unfold ask
  cases host.answer s.requests r <;> rfl

theorem context_call (s : Interaction) (host : Host) (c : Call) :
    (s.call host c).1.context = s.context := by
  unfold call
  cases host.function? c.function <;> rfl

end Interaction

namespace Action

/-- An action comes to a result, from the answer to a request, from a function or from a text, and
leaves an interaction behind. -/
inductive Obtains (st : Setting) (data : Value) (s : Interaction) (a : Action) :
    Value → Interaction → Prop where
  | answer {config : Fields Value} {url : String} {v : Value} {t : Interaction}
      (kind : a.kind = .callApi)
      (rendered : Template.renderMembers (s.env st.host.clock data) a.config = .ok config)
      (named : Order.requiredText .callApi config "url" = .ok url)
      (asked : s.ask st.host (Order.requestOf config url) = (t, .ok v)) : Obtains st data s a v t
  | returned {config : Fields Value} {function : String} {v : Value} {t : Interaction}
      (kind : a.kind = .callFunction)
      (rendered : Template.renderMembers (s.env st.host.clock data) a.config = .ok config)
      (named : Order.requiredText .callFunction config "function" = .ok function)
      (called : s.call st.host ⟨function, Order.argsOf config, data⟩ = (t, .ok v)) :
      Obtains st data s a v t
  | evaluated {code : String} {v : Value} (kind : a.kind = .executeCode)
      (named : Order.requiredText .executeCode a.config "code" = .ok code)
      (run : Expr.run (s.env st.host.clock data) code = .ok v) : Obtains st data s a v s

variable {st : Setting} {below : Option Below} {data v : Value} {s t : Interaction} {a : Action}
  {r key : String}

theorem Obtains.context_eq (h : Obtains st data s a v t) : t.context = s.context := by
  cases h with
  | answer kind rendered named asked =>
    rw [← s.context_ask, asked]
  | returned kind rendered named called =>
    rw [← s.context_call, called]
  | evaluated kind named run => rfl

/-- An action that may keep a result comes to one wherever it succeeds. -/
theorem exists_obtains_of_perform
    (kind : a.kind = .callApi ∨ a.kind = .callFunction ∨ a.kind = .executeCode)
    (succeeded : (a.perform st below data s).2 = .ok ()) : ∃ v t, Obtains st data s a v t := by
  unfold perform at succeeded
  split at succeeded
  case h_2 => cases succeeded
  case h_1 order ordered =>
  obtain kind | kind | kind := kind
  · rw [Order.ofAction, kind] at ordered
    obtain ⟨config, configured, ordered⟩ := bind_eq_ok_iff.mp ordered
    obtain ⟨url, required, ordered⟩ := bind_eq_ok_iff.mp ordered
    cases ordered
    dsimp only [obey] at succeeded
    split at succeeded
    · next t v asked =>
      exact ⟨v, t, .answer kind (mapError_eq_ok_iff.mp configured) required asked⟩
    · cases succeeded
  · rw [Order.ofAction, kind] at ordered
    obtain ⟨config, configured, ordered⟩ := bind_eq_ok_iff.mp ordered
    obtain ⟨function, required, ordered⟩ := bind_eq_ok_iff.mp ordered
    cases ordered
    dsimp only [obey] at succeeded
    split at succeeded
    · next t v called =>
      exact ⟨v, t, .returned kind (mapError_eq_ok_iff.mp configured) required called⟩
    · cases succeeded
  · rw [Order.ofAction, kind] at ordered
    obtain ⟨code, required, ordered⟩ := bind_eq_ok_iff.mp ordered
    obtain ⟨v, run, ordered⟩ := bind_eq_ok_iff.mp ordered
    exact ⟨v, s, .evaluated kind required (mapError_eq_ok_iff.mp run)⟩

/-- The path of a rendered configuration is the rendered path. -/
theorem resultKey?_of_render {env : Env} {config : Fields Value}
    (configured : Template.renderMembers env a.config = .ok config)
    (named : a.config.get? "resultKey" = some (.str r))
    (rendered : Template.render env (.str r) = .ok (.str key)) :
    Order.resultKey? config = some key := by
  obtain ⟨w, hw, found⟩ := Template.get?_of_renderMembers configured named
  cases hw.symm.trans rendered
  simp [Order.resultKey?, found, Value.text?]

/-- A result is kept at the path that the configuration names, rendered but for a text. -/
theorem perform_of_obtains (h : Obtains st data s a v t)
    (named : a.config.get? "resultKey" = some (.str r))
    (rendered : Template.render (s.env st.host.clock data) (.str r) = .ok (.str key)) :
    a.perform st below data s = t.setState (if a.kind = .executeCode then r else key) v := by
  cases h with
  | @answer config url _ _ kind configured required asked =>
    have order : Order.ofAction (s.env st.host.clock data) a
        = .ok (.request (Order.requestOf config url) (some key)) := by
      rw [Order.ofAction_of_render (by rw [kind]; rfl) configured, kind, Order.ofConfig, required,
        ok_bind, resultKey?_of_render configured named rendered]
      rfl
    rw [perform, order, kind, if_neg (by decide)]
    dsimp only [obey]
    rw [asked]
    rfl
  | @returned config function _ _ kind configured required called =>
    have order : Order.ofAction (s.env st.host.clock data) a
        = .ok (.call function (Order.argsOf config) (some key)) := by
      rw [Order.ofAction_of_render (by rw [kind]; rfl) configured, kind, Order.ofConfig, required,
        ok_bind, resultKey?_of_render configured named rendered]
      rfl
    rw [perform, order, kind, if_neg (by decide)]
    dsimp only [obey]
    rw [called]
    rfl
  | @evaluated code _ kind required run =>
    have stated : Order.resultKey? a.config = some r := by
      simp [Order.resultKey?, named, Value.text?]
    have order : Order.ofAction (s.env st.host.clock data) a = .ok (.keep (some r) v) := by
      simp only [Order.ofAction, kind, Order.ofCode, required, run, stated, ok_bind]
      rfl
    rw [perform, order, kind, if_pos rfl]
    rfl

/-- What an action obtains is kept in the state under the rendered path by requests and functions
always, and by a text that is run exactly if the path renders to itself: it is kept under the path
as it stands there.  It does not reach the context otherwise, and is found at the path where the
action succeeds. -/
theorem keeps_result_at_rendered_path_iff (h : Obtains st data s a v t)
    (named : a.config.get? "resultKey" = some (.str r))
    (rendered : Template.render (s.env st.host.clock data) (.str r) = .ok (.str key)) :
    let path := if a.kind = .executeCode then r else key
    a.perform st below data s = t.setState path v ∧
    (a.perform st below data s = t.setState key v ↔ (a.kind = .executeCode → r = key)) ∧
    t.context = s.context ∧
    ((a.perform st below data s).2 = .ok () →
      (a.perform st below data s).1.context.lookup .state path = v) := by
  intro path
  have kept : a.perform st below data s = t.setState path v := perform_of_obtains h named rendered
  refine ⟨kept, ⟨fun stored run ↦ ?_, fun same ↦ ?_⟩, h.context_eq, fun succeeded ↦ ?_⟩
  · have paths : path = key := Interaction.setState_injective (kept.symm.trans stored)
    rwa [show path = r from if_pos run] at paths
  · by_cases run : a.kind = .executeCode
    · rw [kept, show path = r from if_pos run, same run]
    · rw [kept, show path = key from if_neg run]
  · rw [kept] at succeeded ⊢
    exact Interaction.lookup_setState succeeded

/-- The result of a function is kept under a path from the event. -/
theorem keeps_result_at_path_of_event :
    let host : Host := { Host.alone 0 with function? := fun _ ↦ some fun _ _ _ ↦ .ok (.int 7) }
    let st : Setting := ⟨host, {}, 0, 8⟩
    let data : Value := .obj [("slot", .str "a")]
    let a : Action := {
      kind := .callFunction
      config := [
        ("function", .str "seven"),
        ("resultKey", .str "\x7b\x7b eventData.slot \x7d\x7d")] }
    let t : Interaction := { calls := [⟨"seven", [], data⟩] }
    Obtains st data {} a (.int 7) t ∧ a.perform st none data {} = t.setState "a" (.int 7) ∧
    (a.perform st none data {}).1.context.lookup .state "a" = .int 7 := by
  intro host st data a t
  have env : Template.render (({} : Interaction).env st.host.clock data)
      (.str "\x7b\x7b eventData.slot \x7d\x7d") = .ok (.str "a") := by cbv
  have obtained : Obtains st data {} a (.int 7) t := .returned rfl (by cbv) rfl rfl
  obtain ⟨(kept : a.perform st none data {} = _), -, -, found⟩ :=
    keeps_result_at_rendered_path_iff obtained rfl env
  have succeeded : (a.perform st none data {}).2 = .ok () := by
    rw [kept]
    cbv
  exact ⟨obtained, kept, found succeeded⟩

/-- A text that is run keeps its result under the template of a path, although the template comes
to a path. -/
theorem template_of_path_not_rendered :
    let st : Setting := ⟨Host.alone 0, {}, 0, 8⟩
    let a : Action := {
      kind := .executeCode
      config := [("code", .str "true"), ("resultKey", .str "\x7b\x7b 'a' \x7d\x7d")] }
    Obtains st .null {} a (.bool true) {} ∧
    Template.render (({} : Interaction).env 0 .null) (.str "\x7b\x7b 'a' \x7d\x7d")
      = .ok (.str "a") ∧
    a.perform st none .null {} ≠ ({} : Interaction).setState "a" (.bool true) ∧
    (a.perform st none .null {}).1.context.state = [("\x7b\x7b 'a' \x7d\x7d", .bool true)] := by
  intro st a
  have obtained : Obtains st .null {} a (.bool true) {} := .evaluated rfl rfl (by cbv)
  have rendered : Template.render (({} : Interaction).env 0 .null) (.str "\x7b\x7b 'a' \x7d\x7d")
      = .ok (.str "a") := by cbv
  have performed : a.perform st none .null {}
      = ({} : Interaction).setState "\x7b\x7b 'a' \x7d\x7d" (.bool true) :=
    perform_of_obtains obtained rfl rendered
  refine ⟨obtained, rendered, fun stored ↦ ?_, ?_⟩
  · have paths := Interaction.setState_injective (performed.symm.trans stored)
    exact absurd paths (by decide)
  · rw [performed]
    cbv

end Action

end LivePage
