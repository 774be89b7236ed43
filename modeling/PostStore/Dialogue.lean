/-!
# Dialogues

A dialogue is a program that asks questions one after the other, each depending on the replies so
far, and ends with a value.  What the questions do is left to whoever serves them, so one program
can be run against a real medium, a failing one, or several programs' questions in turn.
-/

namespace PostStore

/-- A program that asks questions in `Q`, gets replies in `R` and ends with a value in `α`. -/
inductive Dialogue (Q : Type) (R : Q → Type) (α : Type) where
  | done (value : α)
  | ask (question : Q) (next : R question → Dialogue Q R α)

namespace Dialogue

variable {Q : Type} {R : Q → Type} {α β σ : Type}

/-! ## Sequencing -/

/-- Goes on with the value in which a dialogue ends. -/
def bind : Dialogue Q R α → (α → Dialogue Q R β) → Dialogue Q R β
  | done value, rest => rest value
  | ask question next, rest => ask question fun reply => (next reply).bind rest

instance : Monad (Dialogue Q R) where
  pure := done
  bind := bind

/-- Going on with nothing changes nothing. -/
theorem bind_done (d : Dialogue Q R α) : d.bind done = d := by
  induction d with
  | done value => rfl
  | ask question next ih => simp only [bind, ih]

/-- Sequencing can be grouped at will. -/
theorem bind_assoc {γ : Type} (d : Dialogue Q R α) (f : α → Dialogue Q R β)
    (g : β → Dialogue Q R γ) : (d.bind f).bind g = d.bind fun a => (f a).bind g := by
  induction d with
  | done value => rfl
  | ask question next ih => simp only [bind, ih]

/-! ## Other questions -/

/-- Answers every question by a dialogue with someone else. -/
def expand {Q' : Type} {R' : Q' → Type} (answer : (question : Q) → Dialogue Q' R' (R question)) :
    Dialogue Q R α → Dialogue Q' R' α
  | done value => done value
  | ask question next => (answer question).bind fun reply => (next reply).expand answer

/-! ## Running -/

/-- Runs a dialogue against a server of its questions that keeps a state. -/
def run (serve : (question : Q) → σ → R question × σ) : Dialogue Q R α → σ → α × σ
  | done value, state => (value, state)
  | ask question next, state =>
    let (reply, state) := serve question state
    (next reply).run serve state

/-- A sequence is run one part after the other. -/
theorem run_bind (serve : (question : Q) → σ → R question × σ) (d : Dialogue Q R α)
    (f : α → Dialogue Q R β) (state : σ) :
    (d.bind f).run serve state =
      (f (d.run serve state).1).run serve (d.run serve state).2 := by
  induction d generalizing state with
  | done value => rfl
  | ask question next ih => simp only [bind, run, ih]

end Dialogue

end PostStore
