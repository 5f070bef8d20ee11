import Mathlib.Data.List.Basic

/-!
# Transforms

A transform consumes a text in pieces.  For each piece it pushes some output or fails, and at the
end it is flushed.  How the text is cut into pieces is up to whoever writes it.

`Tracks w` is the rule for what does not depend on the pieces: a relation between the text
consumed so far, the state and the output so far, kept by every piece of the text `w`.
-/

universe u v

namespace Shellius.Lib

/-- A transform from texts over `α` to texts over `α` with states `σ`. -/
structure Transform (σ : Type u) (α : Type v) where
  transform : σ → List α → Except String (σ × List α)
  flush : σ → Except String (List α)

namespace Transform

variable {σ : Type u} {α : Type v} (T : Transform σ α) {s : σ} {w : List α}
  {R : List α → σ → List α → Prop}

/-- What has been pushed in the end, and the error, if there is one. -/
def run (s : σ) : List (List α) → List α × Option String
  | [] =>
    match T.flush s with
    | .error e => ([], some e)
    | .ok o => (o, none)
  | chunk :: chunks =>
    match T.transform s chunk with
    | .error e => ([], some e)
    | .ok (t, o) =>
      let rest := run t chunks
      (o ++ rest.1, rest.2)

/-- A relation that every piece of a text keeps. -/
structure Tracks (w : List α) (s : σ) (R : List α → σ → List α → Prop) : Prop where
  start : R [] s []
  chunk : ∀ {a t o c}, R a t o → a ++ c <+: w →
    ∃ t' o', T.transform t c = .ok (t', o') ∧ R (a ++ c) t' (o ++ o')

variable {T}

theorem Tracks.run (h : T.Tracks w s R) {chunks : List (List α)} (hw : chunks.flatten = w) :
    ∃ t o, R w t o ∧ T.run s chunks =
      match T.flush t with
      | .error e => (o, some e)
      | .ok o' => (o ++ o', none) := by
  have key : ∀ (chunks : List (List α)) (a : List α) (t : σ) (o : List α), R a t o →
      a ++ chunks.flatten = w → ∃ t' o', R w t' (o ++ o') ∧ T.run t chunks =
        match T.flush t' with
        | .error e => (o', some e)
        | .ok o'' => (o' ++ o'', none) := by
    intro chunks
    induction chunks with
    | nil =>
      intro a t o hR ha
      rw [List.flatten_nil, List.append_nil] at ha
      subst ha
      refine ⟨t, [], by rwa [List.append_nil], ?_⟩
      rw [Transform.run]
      cases T.flush t with
      | error e => rfl
      | ok o' => rfl
    | cons c chunks ih =>
      intro a t o hR ha
      rw [List.flatten_cons, ← List.append_assoc] at ha
      obtain ⟨t', o', htransform, hR'⟩ := h.chunk hR ⟨chunks.flatten, ha⟩
      obtain ⟨u, o'', hR'', hrun⟩ := ih (a ++ c) t' (o ++ o') hR' ha
      refine ⟨u, o' ++ o'', by rwa [← List.append_assoc], ?_⟩
      rw [Transform.run, htransform]
      dsimp only
      rw [hrun]
      cases T.flush u with
      | error e => rfl
      | ok o''' =>
        dsimp only
        rw [List.append_assoc]
  obtain ⟨t, o, hR, hrun⟩ := key chunks [] s [] h.start hw
  exact ⟨t, o, hR, hrun⟩

end Transform

end Shellius.Lib
