import PostStore.Dialogue
/-!
# Transcripts of dialogues

What a dialogue asks of a server and what it is told, question by question.
-/

namespace PostStore.Dialogue

variable {Q : Type} {R : Q → Type} {α β σ : Type}

/-- The questions that a dialogue asks of a server, each with its reply, in order. -/
def transcript (serve : (question : Q) → σ → R question × σ) :
    Dialogue Q R α → σ → List (Σ question : Q, R question)
  | done _, _ => []
  | ask question next, state =>
    ⟨question, (serve question state).1⟩ ::
      (next (serve question state).1).transcript serve (serve question state).2

/-- A sequence asks what its first part asks, and then what the rest asks after that. -/
theorem transcript_bind (serve : (question : Q) → σ → R question × σ) (d : Dialogue Q R α)
    (f : α → Dialogue Q R β) (state : σ) :
    (d.bind f).transcript serve state =
      d.transcript serve state ++
        (f (d.run serve state).1).transcript serve (d.run serve state).2 := by
  induction d generalizing state with
  | done value => rfl
  | ask question next ih =>
    simp only [bind, transcript, run, List.cons_append]
    rw [ih]

end PostStore.Dialogue
