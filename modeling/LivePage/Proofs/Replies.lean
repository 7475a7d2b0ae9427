import Mathlib.Data.List.Basic

/-!
# Replies to calls

Something that is called again and again replies to each call and goes on from what the call has
left behind.
-/

namespace LivePage

/-- The replies to calls, one after another. -/
def replies {σ α β : Type} (reply : σ → α → β × σ) (s : σ) : List α → List β × σ
  | [] => ([], s)
  | a :: r =>
    let (b, s) := reply s a
    let (bs, s) := replies reply s r
    (b :: bs, s)

/-- Where each reply depends on its call alone, as long as something is kept, so do all. -/
theorem replies_eq_map {σ α β : Type} {reply : σ → α → β × σ} {P : σ → Prop} {f : α → β}
    (step : ∀ s a, P s → (reply s a).1 = f a ∧ P (reply s a).2) {s : σ} (hs : P s) (as : List α) :
    (replies reply s as).1 = as.map f ∧ P (replies reply s as).2 := by
  induction as generalizing s with
  | nil => exact ⟨rfl, hs⟩
  | cons a r ih =>
    obtain ⟨first, kept⟩ := step s a hs
    obtain ⟨rest, last⟩ := ih kept
    exact ⟨congrArg₂ List.cons first rest, last⟩

variable {σ α β : Type} (reply : σ → α → β × σ) (s : σ)

@[simp] theorem replies_nil : replies reply s [] = ([], s) := rfl

@[simp] theorem replies_cons (a : α) (r : List α) :
    replies reply s (a :: r) =
      ((reply s a).1 :: (replies reply (reply s a).2 r).1, (replies reply (reply s a).2 r).2) := rfl

end LivePage
